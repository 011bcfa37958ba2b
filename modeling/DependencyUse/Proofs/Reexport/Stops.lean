/-
# Where a search stops

A search stops at a file that it does not look into: the importer, a file on the way, or,
with as many files on the way as allowed, any other file.  A stop is known by the hops that
lead to it and the file, and it can be said without a search.

| part of a stop | condition |
| --- | --- |
| its hops | re-exports that lead from the first file to the stop, one after the other |
| their files | passed once, none of the avoided ones |
| all hops in order | let some asked-for name through |
| its file | avoided, or on the way, or one more than there is room for |

`isStop_cons_iff` takes a stop apart at its first file.  As with routes, the search is seen
as the list of its stops (`stops`), which holds the stops and nothing else (`mem_stops`) and
is in depth-first order (`pairwise_stops`).  What a search notes besides chains is what its
stops note, one after the other (`notes_visit`).
-/

import DependencyUse.Proofs.Reexport.Thinning

namespace DependencyUse

/-- The hops lead from one file to another: each stands in the file that the one before it
names. -/
def Leads (view : View Id) : Path → List Hop → Path → Prop
  | a, [], b => a = b
  | a, h :: hops, b => h.file = a ∧ h.record.isRelative = true ∧
      ∃ goal, Id.run (view.resolve h.record.specifier h.file) = some goal ∧
        Leads view goal.normalize hops b

/-- Where a search does not go on: the hops that lead there, and the file. -/
structure Stop where
  hops : List Hop
  file : Path
deriving DecidableEq, Repr, Inhabited

/-- The search for `flows` from `target` on stops there, with room for at most `room` files,
none of which is to be `avoided`. -/
structure IsStop (view : View Id) (avoided : List Path) (room : Nat) (flows : Flows)
    (target : Path) (s : Stop) : Prop where
  leads : Leads view target.normalize s.hops s.file
  fits : s.hops.length ≤ room
  distinct : (s.hops.map Hop.file).Nodup
  avoids : ∀ h ∈ s.hops, h.file ∉ avoided
  stands : ∀ h ∈ s.hops, h.Stands view
  carries : (flows.along (s.hops.map Hop.record)).isSome = true
  ends : s.file ∈ avoided ∨ s.file ∈ s.hops.map Hop.file ∨ s.hops.length = room

/-- A search stops at its first file if that is avoided or there is no room. -/
theorem isStop_nil_iff {view : View Id} {avoided : List Path} {room : Nat} {flows : Flows}
    {target file : Path} :
    IsStop view avoided room flows target ⟨[], file⟩ ↔
      target.normalize = file ∧ (file ∈ avoided ∨ room = 0) := by
  constructor
  · intro hs
    exact ⟨hs.leads, by simpa [eq_comm] using hs.ends⟩
  · rintro ⟨hfile, hends⟩
    exact ⟨hfile, by simp, by simp, by simp, by simp, rfl, by simpa [eq_comm] using hends⟩

/-- **A stop splits at its first file**, which is not avoided: its first hop names a file, from
which the rest is a stop that avoids the first file too. -/
theorem isStop_cons_iff {view : View Id} {avoided : List Path} {room : Nat} {flows : Flows}
    {target file : Path} {h : Hop} {hops : List Hop} :
    IsStop view avoided room flows target ⟨h :: hops, file⟩ ↔
      h.file = target.normalize ∧ h.file ∉ avoided ∧ h.Stands view ∧
        ∃ less, room = less + 1 ∧ ∃ next star, flows.forward h.record = some (next, star) ∧
          h.record.isRelative = true ∧
            ∃ goal, Id.run (view.resolve h.record.specifier h.file) = some goal ∧
              IsStop view (avoided ++ [h.file]) less next goal ⟨hops, file⟩ := by
  constructor
  · intro hs
    obtain ⟨hfile, hrel, goal, hgoal, hleads⟩ := hs.leads
    obtain ⟨havoid, hnodup, havoids⟩ := passes_cons_iff.1 ⟨hs.distinct, hs.avoids⟩
    obtain ⟨hstands, hrest⟩ := List.forall_mem_cons.1 hs.stands
    obtain ⟨next, star, hforward, hcarries⟩ := Flows.isSome_along_cons.1 hs.carries
    have hfits : hops.length + 1 ≤ room := hs.fits
    obtain ⟨less, rfl⟩ : ∃ less, room = less + 1 := ⟨room - 1, by omega⟩
    refine ⟨hfile, havoid, hstands, less, rfl, next, star, hforward, hrel, goal, hgoal, hleads,
      Nat.le_of_succ_le_succ hfits, hnodup, havoids, hrest, hcarries, ?_⟩
    rcases hs.ends with hold | hway | hfull
    · exact .inl (List.mem_append_left _ hold)
    · rcases List.mem_cons.1 hway with hfirst | hlater
      · exact .inl (List.mem_append_right _ (List.mem_singleton.2 hfirst))
      · exact .inr (.inl hlater)
    · exact .inr (.inr (Nat.succ.inj hfull))
  · rintro ⟨hfile, havoid, hstands, less, rfl, next, star, hforward, hrel, goal, hgoal, hs⟩
    obtain ⟨hdistinct, havoids⟩ := passes_cons_iff.2 ⟨havoid, hs.distinct, hs.avoids⟩
    refine ⟨⟨hfile, hrel, goal, hgoal, hs.leads⟩, Nat.succ_le_succ hs.fits, hdistinct, havoids,
      List.forall_mem_cons.2 ⟨hstands, hs.stands⟩,
      Flows.isSome_along_cons.2 ⟨next, star, hforward, hs.carries⟩, ?_⟩
    rcases hs.ends with hold | hway | hfull
    · rcases List.mem_append.1 hold with hold | hfirst
      · exact .inl hold
      · exact .inr (.inl (List.mem_cons.2 (.inl (List.mem_singleton.1 hfirst))))
    · exact .inr (.inl (List.mem_cons_of_mem _ hway))
    · exact .inr (.inr (congrArg (· + 1) hfull))

namespace Trace

/-- The stops that begin with a hop; `rest` are those from the file it names. -/
def stopsBehind (view : View Id) (rest : Flows → Path → List Stop) (flows : Flows) (h : Hop) :
    List Stop :=
  match flows.forward h.record with
  | none => []
  | some (next, _) =>
    if h.record.isRelative then
      match Id.run (view.resolve h.record.specifier h.file) with
      | none => []
      | some goal => (rest next goal).map fun s => ⟨h :: s.hops, s.file⟩
    else []

theorem mem_stopsBehind {view : View Id} {rest : Flows → Path → List Stop} {flows : Flows}
    {h : Hop} {s : Stop} :
    s ∈ stopsBehind view rest flows h ↔
      ∃ next star, flows.forward h.record = some (next, star) ∧ h.record.isRelative = true ∧
        ∃ goal, Id.run (view.resolve h.record.specifier h.file) = some goal ∧
          ∃ tail ∈ rest next goal, s = ⟨h :: tail.hops, tail.file⟩ := by
  unfold stopsBehind
  cases flows.forward h.record with
  | none => simp
  | some passed =>
    obtain ⟨next, star⟩ := passed
    cases h.record.isRelative with
    | false => simp
    | true =>
      cases Id.run (view.resolve h.record.specifier h.file) with
      | none => simp
      | some goal => simp [eq_comm]

/-- The stops of a search, in the order in which it comes to them. -/
def stops (view : View Id) : Nat → List Path → Flows → Path → List Stop
  | 0, _, _, target => [⟨[], target.normalize⟩]
  | room + 1, avoided, flows, target =>
    if target.normalize ∈ avoided then [⟨[], target.normalize⟩]
    else
      (hops view target.normalize).flatMap
        (stopsBehind view (stops view room (avoided ++ [target.normalize])) flows)

/-- **The list holds the stops and nothing else.** -/
theorem mem_stops {view : View Id} {room : Nat} {avoided : List Path} {flows : Flows}
    {target : Path} {s : Stop} :
    s ∈ stops view room avoided flows target ↔ IsStop view avoided room flows target s := by
  obtain ⟨hops, file⟩ := s
  induction room generalizing avoided flows target hops file with
  | zero =>
    rw [stops, List.mem_singleton, Stop.mk.injEq]
    cases hops with
    | nil => simp [isStop_nil_iff, eq_comm]
    | cons h hops => simp [isStop_cons_iff]
  | succ room ih =>
    rw [stops]
    split
    · rename_i hold
      rw [List.mem_singleton, Stop.mk.injEq]
      cases hops with
      | nil =>
        rw [isStop_nil_iff]
        constructor
        · rintro ⟨-, rfl⟩
          exact ⟨rfl, .inl hold⟩
        · rintro ⟨rfl, -⟩
          exact ⟨rfl, rfl⟩
      | cons h hops =>
        refine ⟨fun hnil => absurd hnil.1 (List.cons_ne_nil _ _), fun hs => ?_⟩
        obtain ⟨hfile, hnot, -⟩ := isStop_cons_iff.1 hs
        exact absurd (hfile ▸ hold) hnot
    · rename_i hnew
      rw [List.mem_flatMap]
      constructor
      · rintro ⟨h, hh, hbehind⟩
        obtain ⟨hfile, hstands⟩ := mem_hops.1 hh
        obtain ⟨next, star, hforward, hrel, goal, hgoal, tail, htail, heq⟩ :=
          mem_stopsBehind.1 hbehind
        cases heq
        exact isStop_cons_iff.2 ⟨hfile, hfile ▸ hnew, hstands, room, rfl, next, star, hforward,
          hrel, goal, hgoal, by rw [hfile]; exact (ih _ _).1 htail⟩
      · intro hs
        cases hops with
        | nil =>
          obtain ⟨rfl, hends⟩ := isStop_nil_iff.1 hs
          exact absurd (hends.resolve_right (by omega)) hnew
        | cons h hops =>
          obtain ⟨hfile, -, hstands, less, hless, next, star, hforward, hrel, goal, hgoal, hrest⟩ :=
            isStop_cons_iff.1 hs
          obtain rfl : room = less := by omega
          exact ⟨h, mem_hops.2 ⟨hfile, hstands⟩, mem_stopsBehind.2 ⟨next, star, hforward, hrel,
            goal, hgoal, _, (ih _ _).2 (hfile ▸ hrest), rfl⟩⟩

/-- **The stops are in depth-first order.** -/
theorem pairwise_stops (view : View Id) (room : Nat) (avoided : List Path) (flows : Flows)
    (target : Path) :
    (stops view room avoided flows target).Pairwise fun a b => Before a.hops b.hops := by
  induction room generalizing avoided flows target with
  | zero => exact List.pairwise_singleton _ _
  | succ room ih =>
    rw [stops]
    split
    · exact List.pairwise_singleton _ _
    · refine List.pairwise_flatMap.2 ⟨fun h _ => ?_, ?_⟩
      · -- after one hop the order is that of the rest
        unfold stopsBehind
        split
        · exact List.Pairwise.nil
        · split
          · split
            · exact List.Pairwise.nil
            · exact List.pairwise_map.2 ((ih _ _ _).imp fun hab => List.Lex.cons hab)
          · exact List.Pairwise.nil
      · refine (pairwise_hops view target.normalize).imp fun {a b} hab x hx y hy => ?_
        obtain ⟨_, _, _, _, _, _, _, _, rfl⟩ := mem_stopsBehind.1 hx
        obtain ⟨_, _, _, _, _, _, _, _, rfl⟩ := mem_stopsBehind.1 hy
        exact List.Lex.rel hab

end Trace

namespace Stop

/-- Where the last hop stands; without one, where the import stands. -/
def place (via : Location) (s : Stop) : Location :=
  (s.hops.getLast?.map fun h => h.record.location).getD via

/-- What a stop adds to an outcome, with the files `before` on the way already. -/
def outcome (display : Path → Path) (maxDepth : Nat) (importer : Path) (before : List Path)
    (via : Location) (s : Stop) : TraceOutcome :=
  if s.file ∈ importer :: (before ++ s.hops.map Hop.file) then
    Trace.circular display (before ++ s.hops.map Hop.file) (s.place via) s.file
  else Trace.tooDeep display maxDepth (s.place via) s.file

/-- A stop at the first file. -/
theorem outcome_nil (display : Path → Path) (maxDepth : Nat) (importer : Path)
    (before : List Path) (via : Location) (file : Path) :
    outcome display maxDepth importer before via ⟨[], file⟩
      = if file ∈ importer :: before then Trace.circular display before via file
        else Trace.tooDeep display maxDepth via file := by
  rw [outcome, List.map_nil, List.append_nil]
  rfl

/-- A hop belongs to the way before the rest of a stop. -/
theorem outcome_cons (display : Path → Path) (maxDepth : Nat) (importer : Path)
    (before : List Path) (via : Location) (h : Hop) (s : Stop) :
    outcome display maxDepth importer before via ⟨h :: s.hops, s.file⟩
      = outcome display maxDepth importer (before ++ [h.file]) h.record.location s := by
  have hplace : place via ⟨h :: s.hops, s.file⟩ = place h.record.location s := by
    cases hlast : s.hops.getLast? <;> simp [place, List.getLast?_cons, hlast]
  have hway : before ++ (h :: s.hops).map Hop.file = before ++ [h.file] ++ s.hops.map Hop.file := by
    simp
  rw [outcome, outcome, hplace, hway]

end Stop

namespace Trace

/-- Something that is noted in outcomes besides chains. -/
structure IsNote {α : Type} (note : TraceOutcome → List α) : Prop where
  append : ∀ a b, note (a ++ b) = note a ++ note b
  chains : ∀ chains, note { chains } = []

variable {α : Type} {note : TraceOutcome → List α}

theorem isNote_warnings : IsNote TraceOutcome.warnings := ⟨fun _ _ => rfl, fun _ => rfl⟩

theorem isNote_cycles : IsNote TraceOutcome.cycles := ⟨fun _ _ => rfl, fun _ => rfl⟩

theorem IsNote.foldr (hnote : IsNote note) (f : Hop → TraceOutcome) (hs : List Hop) :
    note (hs.foldr (fun h rest => f h ++ rest) {}) = hs.flatMap fun h => note (f h) := by
  induction hs with
  | nil => exact hnote.chains []
  | cons h hs ih => rw [List.foldr_cons, hnote.append, ih, List.flatMap_cons]

/-- **What a search notes besides chains is what its stops note**, in their order. -/
theorem notes_visit (hnote : IsNote note) (view : View Id) (maxDepth : Nat) (importer : Path)
    (room : Nat) (chain : List Path) (star : Bool) (flows : Flows) (via : Location)
    (target : Path) :
    note (Id.run (visit view maxDepth importer room chain star flows via target))
      = (stops view room (importer :: chain) flows target).flatMap fun s =>
          note (s.outcome view.display maxDepth importer chain via) := by
  induction room generalizing chain star flows via target with
  | zero =>
    rw [stops, List.flatMap_singleton, Stop.outcome_nil]
    by_cases hold : target.normalize ∈ importer :: chain
    · rw [visit_of_mem _ _ _ _ _ _ _ _ _ hold, if_pos hold]
      rfl
    · rw [visit_zero _ _ _ _ _ _ _ _ hold, if_neg hold]
      rfl
  | succ room ih =>
    by_cases hold : target.normalize ∈ importer :: chain
    · rw [visit_of_mem _ _ _ _ _ _ _ _ _ hold, stops, if_pos hold, List.flatMap_singleton,
        Stop.outcome_nil, if_pos hold]
      rfl
    · rw [visit_succ _ _ _ _ _ _ _ _ _ hold, stops, if_neg hold, hnote.foldr, List.flatMap_assoc]
      refine List.flatMap_congr fun h hh => ?_
      rw [hopOutcome, stopsBehind, ← (mem_hops.1 hh).1]
      cases flows.forward h.record with
      | none => exact hnote.chains []
      | some passed =>
        obtain ⟨next, isStar⟩ := passed
        cases h.record.isRelative with
        | false => exact hnote.chains _
        | true =>
          cases Id.run (view.resolve h.record.specifier h.file) with
          | none => exact hnote.chains []
          | some goal =>
            simp only [if_true, List.flatMap_map, Stop.outcome_cons]
            exact ih _ _ _ _ _

end Trace
end DependencyUse
