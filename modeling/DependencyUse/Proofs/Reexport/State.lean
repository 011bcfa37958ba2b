/-
# The search without its state

The search passes one state on and puts back what it changed.  Here it is written without
a state: the files on the way and the star are arguments, and what is found is the result
(`visit`).  The two agree.

| of the state | before and after the search from a file on |
| --- | --- |
| the files on the way, the star | are the same |
| the files that close a cycle | are the same: the importer and the files on the way |
| what was found | is followed by what `visit` finds |

So what is left of the room and the files on the way always make up the depth, and the
search ends at the depth, never for want of room.
-/

import DependencyUse.Reexport.Trace

namespace DependencyUse
namespace Trace

variable {m : Type → Type} [Monad m]

/-- The outcomes of some records one after the other. -/
def collect (step : ImportRecord → m TraceOutcome) : List ImportRecord → m TraceOutcome
  | [] => return {}
  | r :: rs => do
    let first ← step r
    let rest ← collect step rs
    return first ++ rest

/-- The search from one file on.  `chain` are the files on the way, `room` is how many
more there may be. -/
def visit (view : View m) (maxDepth : Nat) (importer : Path) (room : Nat) (chain : List Path)
    (star : Bool) (flows : Flows) (via : Location) (target : Path) : m TraceOutcome :=
  let file := target.normalize
  if file = importer ∨ file ∈ chain then return circular view.display chain via file
  else
    match room with
    | 0 => return tooDeep view.display maxDepth via file
    | room + 1 => do
      let chain := chain ++ [file]
      let records ← view.imports file
      collect (fun r =>
        match flows.forward r with
        | none => return {}
        | some (next, isStar) =>
          if r.isRelative then do
            match ← view.resolve r.specifier file with
            | some target =>
              visit view maxDepth importer room chain (star || isStar) next r.location target
            | none => return {}
          else return { chains := [chainFor view.display chain (star || isStar) next r] })
        (records.filter follows)

theorem append_nothing (o : TraceOutcome) : o ++ ({} : TraceOutcome) = o := by
  show TraceOutcome.mk (o.chains ++ []) (o.warnings ++ []) (o.cycles ++ []) = o
  simp only [List.append_nil]

theorem append_assoc (a b c : TraceOutcome) : a ++ b ++ c = a ++ (b ++ c) := by
  show TraceOutcome.mk (a.chains ++ b.chains ++ c.chains) (a.warnings ++ b.warnings ++ c.warnings)
    (a.cycles ++ b.cycles ++ c.cycles) = _
  simp only [List.append_assoc]
  rfl

/-- The files that close a cycle are the importer and those on the way. -/
def State.Tracks (s : State) (importer : Path) : Prop :=
  ∀ file, file ∈ s.visited ↔ file = importer ∨ file ∈ s.chain

namespace State

theorem add_nothing (s : State) : s.add {} = s := by
  rw [add, append_nothing]

theorem add_add (s : State) (o more : TraceOutcome) : (s.add o).add more = s.add (o ++ more) := by
  simp only [add, append_assoc]

/-- **Leaving a file puts back** what going into it changed. -/
theorem leave_add_enter {s : State} {file : Path} (hnew : file ∉ s.visited) (o : TraceOutcome) :
    ((s.enter file).add o).leave file = s.add o := by
  have hvisited : (file :: s.visited).filter (· ≠ file) = s.visited := by
    rw [List.filter_cons_of_neg (by simp), List.filter_eq_self]
    exact fun f hf => decide_eq_true fun heq => hnew (heq ▸ hf)
  simp only [add, enter, leave, hvisited, List.dropLast_concat]

theorem Tracks.enter {s : State} {importer : Path} (h : s.Tracks importer) (file : Path) :
    (s.enter file).Tracks importer := by
  intro f
  simp only [State.enter, List.mem_cons, List.mem_append, h f]
  simp [or_comm, or_left_comm]

end State

variable [LawfulMonad m]

/-- **One re-export after the other** gives what is collected of them, if each only adds to
the state. -/
theorem foldlM_eq_collect {step : State → ImportRecord → m State}
    {plain : ImportRecord → m TraceOutcome} {s : State}
    (h : ∀ o r, step (s.add o) r = (s.add o).add <$> plain r) (rs : List ImportRecord)
    (o : TraceOutcome) :
    rs.foldlM step (s.add o) = (s.add o).add <$> collect plain rs := by
  induction rs generalizing o with
  | nil => simp [collect, State.add_nothing]
  | cons r rs ih =>
    rw [List.foldlM_cons, h, collect]
    simp only [map_eq_pure_bind, bind_assoc, pure_bind, State.add_add, append_assoc, ih]

/-- **A re-export is followed and the star put back**, if the search from the next file on puts
its state back. -/
theorem along_eq {view : View m} {maxDepth : Nat} {importer : Path} {room : Nat}
    {go : Flows → Location → Path → State → m State}
    (hgo : ∀ next via target (s : State), s.Tracks importer → s.chain.length + room = maxDepth →
      go next via target s
        = s.add <$> visit view maxDepth importer room s.chain s.throughStar next via target)
    (file : Path) (flows : Flows) {s : State} (hs : s.Tracks importer)
    (hroom : s.chain.length + room = maxDepth)
    (chain : List Path) (star : Bool) (hchain : s.chain = chain) (hstar : s.throughStar = star)
    (r : ImportRecord) :
    along view file flows go s r = s.add <$>
      match flows.forward r with
      | none => return {}
      | some (next, isStar) =>
        if r.isRelative then do
          match ← view.resolve r.specifier file with
          | some target =>
            visit view maxDepth importer room chain (star || isStar) next r.location target
          | none => return {}
        else return { chains := [chainFor view.display chain (star || isStar) next r] } := by
  subst hchain hstar
  rw [along]
  cases flows.forward r with
  | none => rw [map_pure, State.add_nothing]
  | some passed =>
    obtain ⟨next, isStar⟩ := passed
    dsimp only
    cases r.isRelative with
    | false => simp [State.add]
    | true =>
      simp only [if_true, map_bind]
      refine bind_congr fun resolved => ?_
      cases resolved with
      | none => simp [State.add_nothing]
      | some target =>
        dsimp only
        rw [hgo next r.location target { s with throughStar := s.throughStar || isStar } hs hroom]
        simp only [map_eq_pure_bind, bind_assoc, pure_bind]
        rfl

/-- **The search puts its state back**, and adds to it what is found without a state. -/
theorem search_eq_visit (view : View m) (maxDepth : Nat) (importer : Path) (room : Nat)
    (flows : Flows) (via : Location) (target : Path) (s : State) (hs : s.Tracks importer)
    (hroom : s.chain.length + room = maxDepth) :
    search view maxDepth room flows via target s
      = s.add <$> visit view maxDepth importer room s.chain s.throughStar flows via target := by
  induction room generalizing flows via target s with
  | zero =>
    rw [search, visit]
    by_cases hold : target.normalize ∈ s.visited
    · rw [if_pos hold, if_pos ((hs _).1 hold), map_pure]
    · rw [if_neg hold, if_neg (mt (hs _).2 hold), if_pos (by omega), map_pure]
  | succ room ih =>
    rw [search, visit]
    by_cases hold : target.normalize ∈ s.visited
    · rw [if_pos hold, if_pos ((hs _).1 hold), map_pure]
    · rw [if_neg hold, if_neg (mt (hs _).2 hold), if_neg (by omega)]
      simp only [map_bind]
      refine bind_congr fun records => ?_
      have hentered : (s.enter target.normalize).chain.length + room = maxDepth := by
        rw [State.enter, List.length_append, List.length_singleton]
        omega
      have hloop := foldlM_eq_collect (s := s.enter target.normalize)
        (fun o r => along_eq ih target.normalize flows (s := (s.enter target.normalize).add o)
          (hs.enter _) hentered (s.chain ++ [target.normalize]) s.throughStar rfl rfl r)
        (records.filter follows) {}
      rw [State.add_nothing] at hloop
      rw [hloop, bind_pure_comp, Functor.map_map]
      simp only [State.leave_add_enter hold]

/-- **Following an import** is the search without a state from the file that it names. -/
theorem trace_eq (view : View m) (maxDepth : Nat) (r : ImportRecord) (source : Path) :
    trace view maxDepth r source =
      if !r.isRelative || r.typeOnly then pure {}
      else view.resolve r.specifier source >>= fun
        | none => pure {}
        | some target =>
          visit view maxDepth source.normalize maxDepth [] false (Flows.requestedBy r) r.location
            target := by
  have hstart : State.Tracks { visited := [source.normalize] } source.normalize := by
    simp [State.Tracks]
  rw [trace]
  split
  · rfl
  · refine bind_congr fun resolved => ?_
    cases resolved with
    | none => rfl
    | some target =>
      dsimp only
      rw [search_eq_visit view maxDepth source.normalize maxDepth _ _ _ _ hstart (by simp)]
      have hfound : ∀ o : TraceOutcome, ({} : TraceOutcome) ++ o = o := fun _ => rfl
      simp only [map_eq_pure_bind, bind_assoc, pure_bind, State.add, hfound, bind_pure]

end Trace
end DependencyUse
