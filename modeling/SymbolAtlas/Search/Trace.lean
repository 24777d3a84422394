import SymbolAtlas.Error
import SymbolAtlas.Search.Record

/-
  Traces: everything a lazy search does, in order.

  A trace lists the tests of filters and the records found,
  and may end in an error. Stopping early keeps a front part
  of the trace, so a trace also says what a search that is cut
  short does not do.

  Key definitions:
    * `Search.Event`, `Search.Trace`
    * `Search.Trace.append`, `Search.Trace.take`
    * `Search.Trace.records`, `Search.Trace.tests`
-/

------------------------------------------------------------
-- Events and Traces
------------------------------------------------------------

namespace SymbolAtlas

namespace Search

/- A filter is tested on a record, or a record is found. -/
inductive Event (ι : Type) where
  | tested (filter : ι) (record : Record)
  | found (record : Record)
deriving DecidableEq, Repr

/- What happened, and the error that ended it. -/
structure Trace (ι : Type) where
  events : List (Event ι) := []
  failure : Option Error := none
deriving DecidableEq, Repr

namespace Event

variable {ι κ : Type}

def record? : Event ι → Option Record
| .found record => some record
| .tested _ _ => none

def test? : Event ι → Option (ι × Record)
| .found _ => none
| .tested filter record => some (filter, record)

/- Name the filters of an event anew. -/
def map (f : ι → κ) : Event ι → Event κ
| .found record => .found record
| .tested filter record => .tested (f filter) record

end Event

namespace Trace

variable {ι κ : Type}

def empty : Trace ι :=
  {}

def fail (error : Error) : Trace ι :=
  ⟨[], some error⟩

/- Go on with another trace, unless the first one failed. -/
def append (first second : Trace ι) : Trace ι :=
  match first.failure with
  | some _ => first
  | none => ⟨first.events ++ second.events, second.failure⟩

instance : Append (Trace ι) :=
  ⟨append⟩

/- One trace after the other. -/
def concat (traces : List (Trace ι)) : Trace ι :=
  traces.foldr (· ++ ·) empty

/- The records found. -/
def records (t : Trace ι) : List Record :=
  t.events.filterMap Event.record?

/- The tests of filters. -/
def tests (t : Trace ι) : List (ι × Record) :=
  t.events.filterMap Event.test?

/- Name the filters of a trace anew. -/
def map (f : ι → κ) (t : Trace ι) : Trace κ :=
  ⟨t.events.map (Event.map f), t.failure⟩

/-
  The events up to the one that finds so many records, and
  whether there are that many.
-/
def takeEvents : Nat → List (Event ι) → List (Event ι) × Bool
| 0, _ => ([], true)
| _, [] => ([], false)
| n + 1, .found record :: rest =>
    let (events, enough) := takeEvents n rest
    (.found record :: events, enough)
| n + 1, .tested filter record :: rest =>
    let (events, enough) := takeEvents (n + 1) rest
    (.tested filter record :: events, enough)

/- What happens when a search is stopped after some records. -/
def take (n : Nat) (t : Trace ι) : Trace ι :=
  let (events, enough) := takeEvents n t.events
  ⟨events, if enough then none else t.failure⟩

end Trace

end Search

end SymbolAtlas
