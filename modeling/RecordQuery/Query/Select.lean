import RecordQuery.Query.Aggregate
import RecordQuery.Query.Combine
import RecordQuery.Query.Group
import RecordQuery.Query.Order

/-! # Select

A pipeline over records: projection to columns, a filter on the projected records, groups and their
aggregates, a filter on the groups, an order, and a window of the result. Aggregates see the records
as they were before the projection.
-/

namespace RecordQuery

/-- A column of a select. -/
inductive Column where
  | plain (a : Accessor)
  | aggregate (a : Aggregate)

def Column.name : Column → String
  | plain a => a.name
  | aggregate a => a.name

/-- A select: its plain columns and aggregates, whether the fields of the record are kept, and the
further stages. A limit of zero is no limit. -/
structure Select where
  columns : List Accessor
  aggregates : List Aggregate
  splat : Bool
  filter : Option Accessor
  grouping : Option Grouping
  having : Option Accessor
  order : Option (List Comparator)
  limit : Nat
  offset : Nat

namespace Select

def plainColumns (columns : List Column) : List Accessor :=
  columns.filterMap fun
    | .plain a => some a
    | .aggregate _ => none

def aggregateColumns (columns : List Column) : List Aggregate :=
  columns.filterMap fun
    | .plain _ => none
    | .aggregate a => some a

/-- A select of columns. A column named `*` keeps the fields of the record, and so does a select
without plain columns. -/
def ofColumns (columns : List Column) : Select :=
  let plain := plainColumns columns
  { columns := plain.filter fun a => a.name != "*"
    aggregates := aggregateColumns columns
    splat := plain.isEmpty || plain.any fun a => a.name == "*"
    filter := none
    grouping := none
    having := none
    order := none
    limit := 0
    offset := 0 }

/-! ## Stages -/

/-- Keeps the projected records on which all the specs hold. -/
def filterBy (s : Select) (specs : List Spec) : Except QueryError Select :=
  match Accessor.and specs with
  | .error e => .error (.syntactic e)
  | .ok a => .ok { s with filter := some a }

/-- Groups the records by the specs. -/
def groupBy (s : Select) (specs : List Spec) : Except QueryError Select :=
  (Grouping.ofSpecs specs).map fun g => { s with grouping := some g }

/-- Keeps the groups on which all the specs hold. -/
def havingAll (s : Select) (specs : List Spec) : Except QueryError Select :=
  match Accessor.and specs with
  | .error e => .error (.syntactic e)
  | .ok a => .ok { s with having := some a }

/-- Orders the result by the specs. -/
def orderBy (s : Select) (specs : List Spec) : Except QueryError Select :=
  (Comparator.ofSpecs specs).map fun cs => { s with order := some cs }

def withLimit (s : Select) (limit : Nat) : Select := { s with limit := limit }

def withOffset (s : Select) (offset : Nat) : Select := { s with offset := offset }

/-! ## Running a select -/

/-- An output record with one more column of a record. -/
def writeColumn (row : Value) (out : Fields) (a : Accessor) : Except EvalError Fields :=
  (a.call row).map fun v => out.insert a.name v.toJson

/-- The fields of a record that a projection starts from. -/
def keptFields (splat : Bool) : Json → Fields
  | .object fields => if splat then Fields.insertAll [] fields else []
  | _ => []

/-- The projection of a record to the columns, or the record itself without any. -/
def project (s : Select) (row : Json) : Except EvalError Value :=
  match s.columns with
  | [] => .ok (.json row)
  | columns =>
      (columns.foldlM (writeColumn (.json row)) (keptFields s.splat row)).map fun out =>
        .json (.object out)

/-- Whether a record passes a condition, if there is one. -/
def admits (condition : Option Accessor) (d : Value) : Except EvalError Bool :=
  match condition with
  | none => .ok true
  | some a => a.test d

/-- The projected records that pass the filter, each with the record it comes from. -/
def passing (s : Select) : List Json → Except EvalError (List (Json × Value))
  | [] => .ok []
  | row :: rest => do
      let d ← s.project row
      if ← admits s.filter d then return (row, d) :: (← passing s rest) else passing s rest

/-- An output record with one more aggregate of some records. -/
def writeAggregate (members : List Value) (out : Fields) (a : Aggregate) :
    Except EvalError Fields :=
  (a.apply members).map fun v => out.insert a.name v.toJson

/-- An output record with the aggregates of some records. -/
def aggregateRecord (aggregates : List Aggregate) (members : List Value) (out : Fields) :
    Except EvalError Value :=
  (aggregates.foldlM (writeAggregate members) out).map fun out => .json (.object out)

/-- The output record of a group. The aggregates work on the input records. -/
def groupRecord (aggregates : List Aggregate) (inputs : List Json) (g : Group) :
    Except EvalError Value :=
  aggregateRecord aggregates (g.members.filterMap fun i => inputs[i]?.map Value.json) g.fields

/-- The records that pass a condition. -/
def keep (condition : Option Accessor) : List Value → Except EvalError (List Value)
  | [] => .ok []
  | d :: rest => do
      if ← admits condition d then return d :: (← keep condition rest) else keep condition rest

/-- The records after grouping and aggregation. Aggregates without a grouping see one group of all
records. The condition on groups counts only if there are any. -/
def grouped (s : Select) (rows : List (Json × Value)) : Except EvalError (List Value) :=
  match s.grouping, s.aggregates with
  | some grouping, aggregates => do
      let groups ← grouping.group (rows.map Prod.snd)
      let records ← groups.mapM (groupRecord aggregates (rows.map Prod.fst))
      keep s.having records
  | none, [] => .ok (rows.map Prod.snd)
  | none, aggregates => do
      let record ← aggregateRecord aggregates (rows.map fun r => .json r.1) []
      keep s.having [record]

def ordered (s : Select) (records : List Value) : Except EvalError (List Value) :=
  match s.order with
  | none => .ok records
  | some comparators => sortRows comparators records

/-- The part of a result that the offset and the limit leave. -/
def window {α : Type} (limit offset : Nat) (records : List α) : List α :=
  if limit = 0 then records.drop offset else (records.drop offset).take limit

def run (s : Select) (rows : List Json) : Except EvalError (List Json) := do
  let passed ← s.passing rows
  let records ← s.grouped passed
  let sorted ← s.ordered records
  return (window s.limit s.offset sorted).map Value.toJson

end Select

end RecordQuery
