/-
# Cycle detection bounds a search

A search passes no file twice on one branch and never the importer, so a branch holds at most
as many files as re-exports can reach besides the importer.

| on every branch of a search | because |
| --- | --- |
| no file is there twice | a search stops at a file on the way |
| the importer is not there | a search stops at it |
| every file can be reached | each file is named by a re-export of the one before |

The bound on the depth comes on top.  Where it allows as many files as can be reached, it is
never met: a stop for want of room would need one file more than there are.

The branches are read off a search that keeps a record of the files on the way
(`visitHeld`) and finds what a search without one finds (`outcome_visitHeld`).
-/

import DependencyUse.Proofs.Reexport.Cycles
import Mathlib.Data.Set.Card
import Mathlib.Logic.Relation

namespace DependencyUse

namespace View

/-- Some re-export of the first file, not of types only, names the second. -/
def Forwards (view : View Id) (a b : Path) : Prop :=
  ∃ r ∈ Id.run (view.imports a), r.isReexport = true ∧ r.typeOnly = false ∧
    r.isRelative = true ∧ ∃ goal, Id.run (view.resolve r.specifier a) = some goal ∧
      goal.normalize = b

/-- The files that re-exports lead to from a file, and that file. -/
def reached (view : View Id) (first : Path) : Set Path :=
  {file | Relation.ReflTransGen view.Forwards first file}

/-- The files that an import leads to: the one that it names, and those behind it. -/
def reachedBy (view : View Id) (r : ImportRecord) (source : Path) : Set Path :=
  {file | ∃ target, Id.run (view.resolve r.specifier source) = some target ∧
    file ∈ view.reached target.normalize}

variable {view : View Id}

theorem mem_reached_self (first : Path) : first ∈ view.reached first :=
  Relation.ReflTransGen.refl

theorem Forwards.reached {a b file : Path} (h : view.Forwards a b) (hfile : file ∈ view.reached b) :
    file ∈ view.reached a :=
  Relation.ReflTransGen.head h hfile

/-- A hop that names a file leads there. -/
theorem forwards_of_stands {h : Hop} {goal : Path} (hstands : h.Stands view)
    (hrel : h.record.isRelative = true)
    (hgoal : Id.run (view.resolve h.record.specifier h.file) = some goal) :
    view.Forwards h.file goal.normalize :=
  ⟨h.record, List.mem_of_getElem? hstands.1, hstands.2.1, hstands.2.2, hrel, goal, hgoal, rfl⟩

/-- **Hops pass files that can be reached**, and end at one. -/
theorem mem_reached_of_leads {first last : Path} {hops : List Hop}
    (hleads : Leads view first hops last) (hstands : ∀ h ∈ hops, h.Stands view) :
    (∀ h ∈ hops, h.file ∈ view.reached first) ∧ last ∈ view.reached first := by
  induction hops generalizing first with
  | nil =>
    obtain rfl : first = last := hleads
    exact ⟨by simp, mem_reached_self first⟩
  | cons h hops ih =>
    obtain ⟨rfl, hrel, goal, hgoal, hrest⟩ := hleads
    obtain ⟨hfirst, hlater⟩ := List.forall_mem_cons.1 hstands
    have hforwards := forwards_of_stands hfirst hrel hgoal
    obtain ⟨hfiles, hlast⟩ := ih hrest hlater
    refine ⟨List.forall_mem_cons.2 ⟨mem_reached_self _, fun k hk => ?_⟩, hforwards.reached hlast⟩
    exact hforwards.reached (hfiles k hk)

/-- What is reached from a file of some files that name only each other is one of them. -/
theorem mem_of_mem_reached {files : List Path} {first file : Path}
    (hclosed : ∀ a ∈ files, ∀ r ∈ Id.run (view.imports a),
      ∀ goal ∈ Id.run (view.resolve r.specifier a), goal.normalize ∈ files)
    (hfirst : first ∈ files) (hfile : file ∈ view.reached first) : file ∈ files := by
  induction hfile with
  | refl => exact hfirst
  | tail _ hforwards ih =>
    obtain ⟨r, hr, -, -, -, goal, hgoal, rfl⟩ := hforwards
    exact hclosed _ ih r hr goal hgoal

end View

/-- **Different files of a set are at most as many as the set has.** -/
theorem length_le_encard {files : List Path} {s : Set Path} (hnodup : files.Nodup)
    (hmem : ∀ file ∈ files, file ∈ s) : (files.length : ℕ∞) ≤ s.encard := by
  have hsub : ((files.toFinset : Finset Path) : Set Path) ⊆ s := by
    intro file hfile
    exact hmem file (by simpa using hfile)
  have hcard := Set.encard_le_encard hsub
  rwa [Set.encard_coe_eq_coe_finsetCard, List.toFinset_card_of_nodup hnodup] at hcard

namespace Trace

/-- What a search finds, and the files on the way each time that it passes one more. -/
structure Held where
  outcome : TraceOutcome := {}
  branches : List (List Path) := []

/-- What a hop adds; `rest` is the search from the file it names, `chain` are the files on
the way. -/
def heldBehind (view : View Id) (rest : Bool → Flows → Location → Path → Held)
    (chain : List Path) (star : Bool) (flows : Flows) (h : Hop) : Held :=
  match flows.forward h.record with
  | none => {}
  | some (next, isStar) =>
    if h.record.isRelative then
      match Id.run (view.resolve h.record.specifier h.file) with
      | some goal => rest (star || isStar) next h.record.location goal
      | none => {}
    else { outcome := { chains := [chainFor view.display chain (star || isStar) next h.record] } }

/-- The search from one file on, with a record of its branches. -/
def visitHeld (view : View Id) (maxDepth : Nat) (importer : Path) :
    Nat → List Path → Bool → Flows → Location → Path → Held
  | 0, chain, _, _, via, target =>
    { outcome :=
        if target.normalize ∈ importer :: chain then
          circular view.display chain via target.normalize
        else tooDeep view.display maxDepth via target.normalize }
  | room + 1, chain, star, flows, via, target =>
    if target.normalize ∈ importer :: chain then
      { outcome := circular view.display chain via target.normalize }
    else
      let way := chain ++ [target.normalize]
      let found := (hops view target.normalize).map
        (heldBehind view (visitHeld view maxDepth importer room way) way star flows)
      { outcome := found.foldr (fun part rest => part.outcome ++ rest) {}
        branches := way :: found.flatMap Held.branches }

/-- Follows an import of a file, with a record of its branches. -/
def traceHeld (view : View Id) (maxDepth : Nat) (r : ImportRecord) (source : Path) : Held :=
  if !r.isRelative || r.typeOnly then {}
  else match Id.run (view.resolve r.specifier source) with
    | none => {}
    | some target => visitHeld view maxDepth source.normalize maxDepth [] false
        (Flows.requestedBy r) r.location target

/-- **The record does not show in what is found.** -/
theorem outcome_visitHeld (view : View Id) (maxDepth : Nat) (importer : Path) (room : Nat)
    (chain : List Path) (star : Bool) (flows : Flows) (via : Location) (target : Path) :
    (visitHeld view maxDepth importer room chain star flows via target).outcome
      = Id.run (visit view maxDepth importer room chain star flows via target) := by
  induction room generalizing chain star flows via target with
  | zero =>
    rw [visitHeld]
    by_cases hold : target.normalize ∈ importer :: chain
    · rw [visit_of_mem _ _ _ _ _ _ _ _ _ hold, if_pos hold]
      rfl
    · rw [visit_zero _ _ _ _ _ _ _ _ hold, if_neg hold]
      rfl
  | succ room ih =>
    rw [visitHeld]
    by_cases hold : target.normalize ∈ importer :: chain
    · rw [visit_of_mem _ _ _ _ _ _ _ _ _ hold, if_pos hold]
      rfl
    · rw [visit_succ _ _ _ _ _ _ _ _ _ hold, if_neg hold]
      show List.foldr _ ({} : TraceOutcome) (List.map _ _) = _
      rw [List.foldr_map]
      refine List.foldr_ext _ _ _ fun h hh rest => ?_
      rw [hopOutcome, heldBehind, ← (mem_hops.1 hh).1]
      cases flows.forward h.record with
      | none => rfl
      | some passed =>
        obtain ⟨next, isStar⟩ := passed
        dsimp only
        split
        · cases Id.run (view.resolve h.record.specifier h.file) with
          | none => rfl
          | some goal => exact congrArg (· ++ rest) (ih _ _ _ _ _)
        · rfl

theorem outcome_traceHeld (view : View Id) (maxDepth : Nat) (r : ImportRecord) (source : Path) :
    (traceHeld view maxDepth r source).outcome = Id.run (trace view maxDepth r source) := by
  rw [trace_eq_match, traceHeld]
  split
  · rfl
  · cases Id.run (view.resolve r.specifier source) with
    | none => rfl
    | some target => exact outcome_visitHeld view maxDepth source.normalize maxDepth [] false _ _ _

/-- Different files, none of which is avoided, that can be reached from the first one. -/
structure IsBranch (view : View Id) (avoided : List Path) (first : Path) (files : List Path) :
    Prop where
  distinct : files.Nodup
  avoids : ∀ file ∈ files, file ∉ avoided
  reached : ∀ file ∈ files, file ∈ view.reached first

/-- **A branch gets longer by a file that names its first one.** -/
theorem IsBranch.cons {view : View Id} {avoided : List Path} {first goal : Path}
    {files : List Path} (hnew : first ∉ avoided) (hforwards : view.Forwards first goal)
    (h : IsBranch view (avoided ++ [first]) goal files) :
    IsBranch view avoided first (first :: files) where
  distinct := List.nodup_cons.2 ⟨fun hmem => h.avoids first hmem (by simp), h.distinct⟩
  avoids := List.forall_mem_cons.2
    ⟨hnew, fun file hfile hold => h.avoids file hfile (List.mem_append_left _ hold)⟩
  reached := List.forall_mem_cons.2
    ⟨View.mem_reached_self first, fun file hfile => hforwards.reached (h.reached file hfile)⟩

/-- **Every branch of a search goes on from the way before it** without coming back. -/
theorem exists_isBranch_of_mem_branches {view : View Id} {maxDepth : Nat} {importer : Path}
    {room : Nat} {chain : List Path} {star : Bool} {flows : Flows} {via : Location} {target : Path}
    {branch : List Path}
    (h : branch ∈ (visitHeld view maxDepth importer room chain star flows via target).branches) :
    ∃ files, branch = chain ++ files ∧
      IsBranch view (importer :: chain) target.normalize files := by
  induction room generalizing chain star flows via target with
  | zero => cases h
  | succ room ih =>
    rw [visitHeld] at h
    split at h
    · cases h
    · rename_i hnew
      rcases List.mem_cons.1 h with rfl | h
      · exact ⟨[target.normalize], rfl, by simp, by simpa using hnew,
          by simpa using View.mem_reached_self _⟩
      · obtain ⟨found, hfound, h⟩ := List.mem_flatMap.1 h
        obtain ⟨hop, hhop, rfl⟩ := List.mem_map.1 hfound
        obtain ⟨hfile, hstands⟩ := mem_hops.1 hhop
        rw [heldBehind] at h
        cases hforward : flows.forward hop.record with
        | none => rw [hforward] at h; cases h
        | some passed =>
          obtain ⟨next, isStar⟩ := passed
          rw [hforward] at h
          cases hrel : hop.record.isRelative with
          | false => rw [hrel] at h; cases h
          | true =>
            cases hgoal : Id.run (view.resolve hop.record.specifier hop.file) with
            | none => rw [hrel, hgoal] at h; cases h
            | some goal =>
              rw [hrel, hgoal] at h
              obtain ⟨files, rfl, hbranch⟩ := ih h
              have hforwards := View.forwards_of_stands hstands hrel hgoal
              rw [hfile] at hforwards
              exact ⟨target.normalize :: files, by simp, .cons hnew hforwards hbranch⟩

/-- **Every branch of a traced import** holds different files that the import leads to, and not
the importer. -/
theorem isBranch_of_mem_traceHeld {view : View Id} {maxDepth : Nat} {r : ImportRecord}
    {source : Path} {branch : List Path}
    (h : branch ∈ (traceHeld view maxDepth r source).branches) :
    branch.Nodup ∧ ∀ file ∈ branch, file ∈ view.reachedBy r source \ {source.normalize} := by
  rw [traceHeld] at h
  split at h
  · cases h
  · cases htarget : Id.run (view.resolve r.specifier source) with
    | none => rw [htarget] at h; cases h
    | some target =>
      rw [htarget] at h
      obtain ⟨files, rfl, hbranch⟩ := exists_isBranch_of_mem_branches h
      refine ⟨hbranch.distinct, fun file hfile => ⟨⟨target, htarget, hbranch.reached file hfile⟩, ?_⟩⟩
      exact fun hsource => hbranch.avoids file hfile (List.mem_singleton.2 hsource)

/-- **A stop for want of room needs one file more than the bound allows.** -/
theorem lt_encard_of_not_closes {view : View Id} {maxDepth : Nat} {r : ImportRecord}
    {source : Path} {s : Stop} (hs : s ∈ tracedStops view maxDepth r source)
    (hopen : s.closes source.normalize = false) :
    (maxDepth : ℕ∞) < (view.reachedBy r source \ {source.normalize}).encard := by
  obtain ⟨-, -, target, htarget, hstop⟩ := mem_tracedStops.1 hs
  have hnew : s.file ≠ source.normalize ∧ s.file ∉ s.hops.map Hop.file := by
    simpa [Stop.closes] using hopen
  have hfull : s.hops.length = maxDepth := by
    rcases hstop.ends with hold | hway | hfull
    · exact absurd (List.mem_singleton.1 hold) hnew.1
    · exact absurd hway hnew.2
    · exact hfull
  obtain ⟨hhops, hlast⟩ := View.mem_reached_of_leads hstop.leads hstop.stands
  have hnodup : (s.file :: s.hops.map Hop.file).Nodup := List.nodup_cons.2 ⟨hnew.2, hstop.distinct⟩
  have hmem : ∀ file ∈ s.file :: s.hops.map Hop.file,
      file ∈ view.reachedBy r source \ {source.normalize} := by
    refine List.forall_mem_cons.2 ⟨⟨⟨target, htarget, hlast⟩, hnew.1⟩, fun file hfile => ?_⟩
    obtain ⟨h, hh, rfl⟩ := List.mem_map.1 hfile
    exact ⟨⟨target, htarget, hhops h hh⟩, fun hsource => hstop.avoids h hh (by simpa using hsource)⟩
  have hle := length_le_encard hnodup hmem
  rw [List.length_cons, List.length_map, hfull] at hle
  exact lt_of_lt_of_le (by exact_mod_cast Nat.lt_succ_self maxDepth) hle

/-- **Cycle detection bounds the search.**  For every view, import and importer, and however
many files are allowed: the search with a record of its branches finds what the search finds,
every branch holds different files that re-exports lead to from the file that the import names,
never the importer, and so no more than there are.  If as many files are allowed as can be
reached besides the importer, then there is no warning about the depth. -/
theorem bounded_by_reached (view : View Id) (maxDepth : Nat) (r : ImportRecord) (source : Path) :
    (traceHeld view maxDepth r source).outcome = Id.run (trace view maxDepth r source) ∧
    (∀ branch ∈ (traceHeld view maxDepth r source).branches,
      branch.Nodup ∧ source.normalize ∉ branch ∧
      (∀ file ∈ branch, file ∈ view.reachedBy r source) ∧
      (branch.length : ℕ∞) ≤ (view.reachedBy r source \ {source.normalize}).encard) ∧
    ((view.reachedBy r source \ {source.normalize}).encard ≤ maxDepth →
      ∀ w ∈ (Id.run (trace view maxDepth r source)).warnings, w.code ≠ .maxDepthReached) := by
  refine ⟨outcome_traceHeld view maxDepth r source, fun branch hbranch => ?_, fun hroom w hw => ?_⟩
  · obtain ⟨hnodup, hmem⟩ := isBranch_of_mem_traceHeld hbranch
    exact ⟨hnodup, fun hsource => (hmem _ hsource).2 rfl, fun file hfile => (hmem file hfile).1,
      length_le_encard hnodup hmem⟩
  · rw [warnings_trace] at hw
    obtain ⟨s, hs, rfl⟩ := List.mem_map.1 hw
    cases hcloses : s.closes source.normalize with
    | true => simp [Stop.code_warning_iff.2 hcloses]
    | false => exact absurd hroom (not_le.2 (lt_encard_of_not_closes hs hcloses))

/-- The hypothesis is satisfiable where files lead in circles: `/a.ts` imports from `/b.ts`, which
forwards all of `/c.ts`, which forwards all of `/b.ts` and of `/a.ts`.  Besides `/a.ts` two files
can be reached.  With room for two there is no warning about the depth, with room for one there
is, and with room for nine no branch holds more than two. -/
theorem bounded_by_reached_circle :
    let r := recordAt "/a.ts" 1 .named "./b" [⟨"x", "x"⟩]
    let view := tableView
      [(⟨"/b.ts"⟩, [recordAt "/b.ts" 1 .reexportAll "./c" []]),
        (⟨"/c.ts"⟩, [recordAt "/c.ts" 1 .reexportAll "./b" [],
          recordAt "/c.ts" 2 .reexportAll "./a" []])]
      [(("./b", ⟨"/a.ts"⟩), ⟨"/b.ts"⟩), (("./c", ⟨"/b.ts"⟩), ⟨"/c.ts"⟩),
        (("./b", ⟨"/c.ts"⟩), ⟨"/b.ts"⟩), (("./a", ⟨"/c.ts"⟩), ⟨"/a.ts"⟩)]
    let codes (depth : Nat) := (Id.run (trace view depth r ⟨"/a.ts"⟩)).warnings.map Warning.code
    (view.reachedBy r ⟨"/a.ts"⟩ \ {(⟨"/a.ts"⟩ : Path).normalize}).encard ≤ (2 : Nat) ∧
      codes 2 = [.circularReexport, .circularReexport] ∧ codes 1 = [.maxDepthReached] ∧
      (traceHeld view 9 r ⟨"/a.ts"⟩).branches = [[⟨"/b.ts"⟩], [⟨"/b.ts"⟩, ⟨"/c.ts"⟩]] ∧
      ∀ w ∈ (Id.run (trace view 2 r ⟨"/a.ts"⟩)).warnings, w.code ≠ .maxDepthReached := by
  intro r view codes
  have hclosed : ∀ a ∈ ([⟨"/a.ts"⟩, ⟨"/b.ts"⟩, ⟨"/c.ts"⟩] : List Path),
      ∀ s ∈ Id.run (view.imports a), ∀ goal ∈ Id.run (view.resolve s.specifier a),
        goal.normalize ∈ ([⟨"/a.ts"⟩, ⟨"/b.ts"⟩, ⟨"/c.ts"⟩] : List Path) := by decide +kernel
  have hroom : (view.reachedBy r ⟨"/a.ts"⟩ \ {(⟨"/a.ts"⟩ : Path).normalize}).encard ≤ (2 : Nat) := by
    have hsub : view.reachedBy r ⟨"/a.ts"⟩ \ {(⟨"/a.ts"⟩ : Path).normalize}
        ⊆ {(⟨"/b.ts"⟩ : Path), ⟨"/c.ts"⟩} := by
      rintro file ⟨⟨target, htarget, hfile⟩, hother⟩
      obtain rfl : (⟨"/b.ts"⟩ : Path) = target := Option.some.inj htarget
      have hmem := View.mem_of_mem_reached hclosed (by decide +kernel) hfile
      have himporter : (⟨"/a.ts"⟩ : Path).normalize = ⟨"/a.ts"⟩ := by decide +kernel
      simp only [List.mem_cons, List.not_mem_nil, or_false] at hmem
      exact hmem.resolve_left fun h => hother (h.trans himporter.symm)
    exact (Set.encard_le_encard hsub).trans (Set.encard_pair (by decide)).le
  exact ⟨hroom, by decide +kernel, by decide +kernel, by decide +kernel,
    (bounded_by_reached view 2 r ⟨"/a.ts"⟩).2.2 hroom⟩

end Trace
end DependencyUse
