import CodeGraph.Survey.Outcome

/-!
# Collecting outcomes

When several files are read at once they finish in any order, some at the same time.  A schedule
lists the batches of files as they finish, by their places in the list of files.  `collect` puts
each outcome where its file stands, reports progress after each, and asks the cancel signal after
every batch that leaves files to wait for.
-/

namespace CodeGraph

/-- A cancel signal: its answers in the order in which it is asked. -/
abbrev Signal := Nat → Bool

/-- A signal that may be missing is asked once more; a missing one never cancels. -/
def ask (signal : Option Signal) (asked : Nat) : Bool × Nat :=
  match signal with
  | some s => (s asked, asked + 1)
  | none => (false, asked)

/-- What has been seen of a survey from outside. -/
structure Trace where
  /-- The progress reports: how many files are done, of how many. -/
  progress : List (Nat × Nat)
  /-- How often the cancel signal was asked. -/
  asked : Nat
  deriving DecidableEq

/-- The state of a collection. -/
structure Collection where
  /-- The outcomes so far, each at the place of its file. -/
  slots : List (Option FileOutcome)
  /-- The files that are waited for. -/
  pending : List Nat
  completed : Nat
  trace : Trace

namespace Collection

/-- The collection of `total` files before the first one is finished. -/
def start (total : Nat) (trace : Trace) : Collection :=
  ⟨List.replicate total none, List.range total, 0, trace⟩

/-- Takes the outcome of a finished file. -/
def take (carried : Nat → Option FileOutcome) (total : Nat) (c : Collection) (place : Nat) :
    Collection :=
  { slots := c.slots.set place (carried place)
    pending := c.pending.erase place
    completed := c.completed + 1
    trace := { c.trace with progress := c.trace.progress ++ [(c.completed + 1, total)] } }

/-- Takes batch after batch until nothing is pending. -/
def run (carried : Nat → Option FileOutcome) (total : Nat) (signal : Option Signal) :
    List (List Nat) → Collection → Except Stage Unit × Collection
  | [], c => (.ok (), c)
  | batch :: schedule, c =>
    if c.pending.isEmpty then (.ok (), c)
    else
      let c := batch.foldl (take carried total) c
      if c.pending.isEmpty then run carried total signal schedule c
      else
        let (cancelled, asked) := ask signal c.trace.asked
        let c := { c with trace := { c.trace with asked } }
        if cancelled then (.error .betweenFiles, c) else run carried total signal schedule c

end Collection

/-- The outcomes of a schedule in the order of the files. -/
def collect (outcomes : List FileOutcome) (signal : Option Signal) (schedule : List (List Nat))
    (trace : Trace) : Except Stage (List FileOutcome) × Trace :=
  let total := outcomes.length
  match Collection.run (outcomes[·]?) total signal schedule (.start total trace) with
  | (.ok (), c) => (.ok (c.slots.filterMap id), c.trace)
  | (.error stage, c) => (.error stage, c.trace)

end CodeGraph
