import AccessBroker.Store.Database

/-!
# Tampering

Changes that somebody makes to a database behind the back of the stores in it: to the
number that versions are taken from, to a row of the table of changes, and to the
document of an object, whose columns then no longer fit it.
-/

namespace AccessBroker

namespace Tables

/-- The tables with another number or kind in the change rows with a number. -/
def editChange (tables : Tables) (sequence : Int) (newSequence : Option Int)
    (newKind : Option String) : Tables :=
  { tables with changes := tables.changes.map fun row =>
      if row.sequence = sequence then
        { row with sequence := newSequence.getD sequence, kind := newKind.getD row.kind }
      else row }

/-- The tables with fields of a document overwritten, or without its row if no fields
are given. -/
def editDocument (tables : Tables) (key : RowKey) (fields : Option Fields) : Tables :=
  let objects := match fields, tables.objects.find? key with
    | none, _ => tables.objects.erase key
    | some fields, some row =>
      tables.objects.insert key { row with document := row.document.overlay fields }
    | some _, none => tables.objects
  { tables with objects }

end Tables

end AccessBroker
