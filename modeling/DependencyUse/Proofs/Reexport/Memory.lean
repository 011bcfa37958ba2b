/-
# What is remembered does not show

The traces of a project ask a memory, and every question changes it.  Still each answer
is one that can be said without a memory:

| question | answer |
| --- | --- |
| what a specifier in a file names | what the disk says |
| what a file imports | what was put in for its normal form, or else what the disk says |

The memory is good as long as every answer it would give is the right one.  A question
that is asked of a good memory is answered right and leaves a good one (`Answers`), and
so is a search, which does nothing but ask (`answers_visit`).  Hence the traces of a
project are those of its `view`, one by one (`build_eq`).
-/

import DependencyUse.Proofs.Path.Tidy
import DependencyUse.Proofs.Reexport.Search
import DependencyUse.Reexport.Index

namespace DependencyUse

/-- Whatever good memory it finds, the action gives the answer and leaves a good memory. -/
def Answers {σ α : Type} (good : σ → Prop) (x : StateM σ α) (answer : α) : Prop :=
  ∀ s, good s → (x.run s).1 = answer ∧ good (x.run s).2

namespace Answers

variable {σ α β : Type} {good : σ → Prop}

theorem pure (a : α) : Answers good (Pure.pure a : StateM σ α) a :=
  fun _ hs => ⟨rfl, hs⟩

theorem bind {x : StateM σ α} {f : α → StateM σ β} {a : α} {b : β} (hx : Answers good x a)
    (hf : Answers good (f a) b) : Answers good (x >>= f) b := by
  intro s hs
  obtain ⟨hanswer, hleft⟩ := hx s hs
  show ((f (x.run s).1).run (x.run s).2).1 = b ∧ good ((f (x.run s).1).run (x.run s).2).2
  rw [hanswer]
  exact hf _ hleft

end Answers

/-- The first entry of a key is the one that is found. -/
theorem lookup_cons_ite {κ ν : Type} [BEq κ] [LawfulBEq κ] [DecidableEq κ] (k : κ) (e : κ × ν)
    (es : List (κ × ν)) :
    (e :: es).lookup k = if k = e.1 then some e.2 else es.lookup k := by
  rw [List.lookup_cons]
  by_cases h : k = e.1
  · simp [h]
  · rw [if_neg h, beq_false_of_ne h]

namespace ExistenceCache

/-- What is remembered of a tidy path is what the disk says. -/
def Agrees (d : Disk) (c : ExistenceCache) : Prop :=
  ∀ p : Path, p.IsTidy → ∀ answer, c.get? p = some answer → answer = d.isFile p

theorem agrees_empty (d : Disk) : Agrees d {} := nofun

theorem get?_cons (c : ExistenceCache) (p q : Path) (answer : Bool) :
    (⟨(p.steps, answer) :: c.answers⟩ : ExistenceCache).get? q
      = if q.steps = p.steps then some answer else c.get? q :=
  lookup_cons_ite q.steps (p.steps, answer) c.answers

/-- What is remembered is answered, and nothing changes. -/
theorem run_isFile_of_some {d : Disk} {c : ExistenceCache} {p : Path} {answer : Bool}
    (h : c.get? p = some answer) : (isFile d p).run c = (answer, c) := by
  simp only [isFile, StateT.run_bind, StateT.run_get, pure_bind, h]
  rfl

/-- What is not remembered is asked of the disk, and remembered. -/
theorem run_isFile_of_none {d : Disk} {c : ExistenceCache} {p : Path} (h : c.get? p = none) :
    (isFile d p).run c = (d.isFile p, ⟨(p.steps, d.isFile p) :: c.answers⟩) := by
  simp only [isFile, StateT.run_bind, StateT.run_get, pure_bind, h]
  rfl

/-- Tidy paths are answered in the same way. -/
def AnswersAs (d : Disk) (start c : ExistenceCache) : Prop :=
  ∀ p : Path, p.IsTidy → (c.get? p).getD (d.isFile p) = (start.get? p).getD (d.isFile p)

/-- **A tidy path is answered as at the start**, whatever tidy paths were asked for since. -/
theorem answers_isFile_as (d : Disk) (start : ExistenceCache) {p : Path} (hp : p.IsTidy) :
    Answers (AnswersAs d start) (isFile d p) ((start.get? p).getD (d.isFile p)) := by
  intro c hc
  rw [← hc p hp]
  cases hget : c.get? p with
  | some answer =>
    rw [run_isFile_of_some hget]
    exact ⟨rfl, hc⟩
  | none =>
    rw [run_isFile_of_none hget]
    refine ⟨rfl, fun q hq => ?_⟩
    rw [← hc q hq, get?_cons]
    split
    · rename_i hsteps
      rw [hq.eq_of_steps_eq hp hsteps, hget]
      rfl
    · rfl

theorem agrees_iff {d : Disk} {c : ExistenceCache} : Agrees d c ↔ AnswersAs d {} c := by
  constructor
  · intro h p hp
    cases hget : c.get? p with
    | some answer => exact h p hp answer hget
    | none => rfl
  · intro h p hp answer hget
    have hanswer := h p hp
    rw [hget] at hanswer
    exact hanswer

theorem answers_isFile (d : Disk) {p : Path} (hp : p.IsTidy) :
    Answers (Agrees d) (isFile d p) (d.isFile p) := by
  intro c hc
  rw [agrees_iff] at hc ⊢
  exact answers_isFile_as d {} hp c hc

/-- The first of some paths that is answered to be a file. -/
theorem answers_firstFile {good : ExistenceCache → Prop} {said : Path → Bool} {d : Disk}
    {ps : List Path} (h : ∀ p ∈ ps, Answers good (isFile d p) (said p)) :
    Answers good (firstFile d ps) (ps.find? said) := by
  induction ps with
  | nil => exact .pure none
  | cons p ps ih =>
    rw [List.forall_mem_cons] at h
    refine h.1.bind ?_
    cases hsaid : said p with
    | true =>
      rw [List.find?_cons_of_pos hsaid]
      exact .pure _
    | false =>
      rw [List.find?_cons_of_neg (by simp [hsaid])]
      exact ih h.2

/-- **A specifier is resolved as the disk resolves it.** -/
theorem answers_resolve (d : Disk) (specifier : String) (source : Path) :
    Answers (Agrees d) (resolve d specifier source) (d.resolve? specifier source) := by
  unfold resolve Disk.resolve?
  split
  · exact answers_firstFile fun p hp => answers_isFile d (Path.isTidy_of_mem_candidates hp)
  · exact .pure none

end ExistenceCache

namespace ParseCache

/-- What is answered for a normal form. -/
def answer (d : Disk) (c : ParseCache) (key : Path) : List ImportRecord :=
  (c.get? key).getD (read d c key)

/-- The same answers are given. -/
def Agrees (d : Disk) (start c : ParseCache) : Prop :=
  ∀ key, c.answer d key = start.answer d key

theorem lookup_put (key k : Path) (imports : List ImportRecord)
    (entries : List (Path × List ImportRecord)) :
    (put key imports entries).lookup k = if k = key then some imports else entries.lookup k := by
  induction entries with
  | nil => rw [put, lookup_cons_ite]
  | cons e entries ih =>
    rw [put]
    split
    · rename_i he
      rw [lookup_cons_ite, lookup_cons_ite, he]
      split <;> rfl
    · rename_i he
      rw [lookup_cons_ite, lookup_cons_ite, ih]
      by_cases h : k = key
      · rw [if_pos h, if_neg (h ▸ Ne.symm he), if_pos h]
      · rw [if_neg h, if_neg h]

/-- **Of the files that are put in, the last one with a normal form counts.** -/
theorem get?_seed (c : ParseCache) (files : List ParsedFile) (key : Path) :
    (c.seed files).get? key
      = ((files.reverse.find? fun f => f.path.normalize = key).map ParsedFile.imports).or
          (c.get? key) := by
  induction files generalizing c with
  | nil => rfl
  | cons f files ih =>
    show ((c.seedOne f.path f.imports).seed files).get? key = _
    rw [ih, List.reverse_cons, List.find?_append]
    have hone : (c.seedOne f.path f.imports).get? key
        = if key = f.path.normalize then some f.imports else c.get? key :=
      lookup_put f.path.normalize key f.imports c.entries
    rw [hone]
    cases files.reverse.find? fun f => f.path.normalize = key with
    | some found => rfl
    | none =>
      by_cases h : key = f.path.normalize
      · simp [h]
      · simp [h, Ne.symm h]

/-- An entry is answered, which is a hit. -/
theorem run_imports_of_some {d : Disk} {c : ParseCache} {path : Path} {records : List ImportRecord}
    (h : c.get? path.normalize = some records) :
    (imports d path).run c = (records, { c with hits := c.hits + 1 }) := by
  simp only [imports, StateT.run_bind, StateT.run_get, pure_bind, h]
  rfl

/-- Without an entry the disk is asked and the answer put in, which is a miss. -/
theorem run_imports_of_none {d : Disk} {c : ParseCache} {path : Path}
    (h : c.get? path.normalize = none) :
    (imports d path).run c = (read d c path.normalize,
      { c with misses := c.misses + 1
               entries := put path.normalize (read d c path.normalize) c.entries }) := by
  simp only [imports, StateT.run_bind, StateT.run_get, pure_bind, h]
  rfl

/-- **The imports of a file are those that would be answered at the start.** -/
theorem answers_imports (d : Disk) (start : ParseCache) (path : Path) :
    Answers (Agrees d start) (imports d path) (start.answer d path.normalize) := by
  intro c hc
  cases hget : c.get? path.normalize with
  | some records =>
    rw [run_imports_of_some hget, ← hc]
    refine ⟨?_, hc⟩
    rw [answer, hget]
    rfl
  | none =>
    rw [run_imports_of_none hget, ← hc]
    refine ⟨by rw [answer, hget]; rfl, fun key => ?_⟩
    rw [← hc, answer, answer, get?, lookup_put]
    by_cases hkey : key = path.normalize
    · rw [if_pos hkey, hkey, hget]
      rfl
    · rw [if_neg hkey]
      rfl

end ParseCache

namespace Memory

/-- What is remembered answers as the disk does, and as what was put in at the start. -/
def Agrees (d : Disk) (start : ParseCache) (memory : Memory) : Prop :=
  memory.existence.Agrees d ∧ ParseCache.Agrees d start memory.parses

theorem answers_imports (d : Disk) (start : ParseCache) (path : Path) :
    Answers (Agrees d start) (imports d path) (start.answer d path.normalize) := by
  intro memory hmemory
  obtain ⟨hanswer, hleft⟩ := ParseCache.answers_imports d start path _ hmemory.2
  exact ⟨hanswer, hmemory.1, hleft⟩

theorem answers_resolve (d : Disk) (start : ParseCache) (specifier : String) (source : Path) :
    Answers (Agrees d start) (resolve d specifier source) (d.resolve? specifier source) := by
  intro memory hmemory
  obtain ⟨hanswer, hleft⟩ := ExistenceCache.answers_resolve d specifier source _ hmemory.1
  exact ⟨hanswer, hleft, hmemory.2⟩

end Memory

/-- What is asked of one view is answered as the other one does. -/
structure View.Answers {σ : Type} (good : σ → Prop) (asked : View (StateM σ)) (view : View Id) :
    Prop where
  imports : ∀ file, DependencyUse.Answers good (asked.imports file) (Id.run (view.imports file))
  resolve : ∀ specifier source,
    DependencyUse.Answers good (asked.resolve specifier source)
      (Id.run (view.resolve specifier source))
  display : asked.display = view.display

namespace Trace

variable {σ : Type} {good : σ → Prop} {asked : View (StateM σ)} {view : View Id}

theorem answers_collect {step : ImportRecord → StateM σ TraceOutcome}
    {plain : ImportRecord → Id TraceOutcome} (h : ∀ r, Answers good (step r) (Id.run (plain r)))
    (rs : List ImportRecord) :
    Answers good (collect step rs) (Id.run (collect plain rs)) := by
  induction rs with
  | nil => exact .pure _
  | cons r rs ih => exact (h r).bind (ih.bind (.pure _))

/-- **A search that asks a memory** finds what it finds without one. -/
theorem answers_visit (h : View.Answers good asked view) (maxDepth : Nat) (importer : Path)
    (room : Nat) (chain : List Path) (star : Bool) (flows : Flows) (via : Location)
    (target : Path) :
    Answers good (visit asked maxDepth importer room chain star flows via target)
      (Id.run (visit view maxDepth importer room chain star flows via target)) := by
  induction room generalizing chain star flows via target with
  | zero =>
    by_cases hold : target.normalize ∈ importer :: chain
    · rw [visit_of_mem _ _ _ _ _ _ _ _ _ hold, visit_of_mem _ _ _ _ _ _ _ _ _ hold, h.display]
      exact .pure _
    · rw [visit_zero _ _ _ _ _ _ _ _ hold, visit_zero _ _ _ _ _ _ _ _ hold, h.display]
      exact .pure _
  | succ room ih =>
    by_cases hold : target.normalize ∈ importer :: chain
    · rw [visit_of_mem _ _ _ _ _ _ _ _ _ hold, visit_of_mem _ _ _ _ _ _ _ _ _ hold, h.display]
      exact .pure _
    · have hif : ¬(target.normalize = importer ∨ target.normalize ∈ chain) := by simpa using hold
      rw [visit, visit, if_neg hif, if_neg hif, h.display]
      refine (h.imports _).bind (answers_collect (fun r => ?_) _)
      cases flows.forward r with
      | none => exact .pure _
      | some passed =>
        obtain ⟨next, isStar⟩ := passed
        cases hrel : r.isRelative with
        | false => exact .pure _
        | true =>
          refine (h.resolve r.specifier target.normalize).bind ?_
          simp only [if_true, Id.run_bind]
          cases Id.run (view.resolve r.specifier target.normalize) with
          | none => exact .pure _
          | some goal => exact ih _ _ _ _ _

theorem answers_trace (h : View.Answers good asked view) (maxDepth : Nat) (r : ImportRecord)
    (source : Path) :
    Answers good (trace asked maxDepth r source) (Id.run (trace view maxDepth r source)) := by
  rw [trace_eq, trace_eq]
  split
  · exact .pure _
  · refine (h.resolve r.specifier source).bind ?_
    rw [Id.run_bind]
    cases Id.run (view.resolve r.specifier source) with
    | none => exact .pure _
    | some target => exact answers_visit h _ _ _ _ _ _ _ _

end Trace

/-- The answers that are given for a project without a memory. -/
def Project.view (d : Disk) (p : Project) : View Id where
  imports file := (TraceIndex.freshMemory p).parses.answer d file.normalize
  resolve := d.resolve?
  display file := file.displayedFrom p.root

theorem ParseCache.root_seed (c : ParseCache) (files : List ParsedFile) :
    (c.seed files).root = c.root := by
  induction files generalizing c with
  | nil => rfl
  | cons f files ih => exact ih (c.seedOne f.path f.imports)

/-- **What a file imports** is said by the last file of the project with its normal form, or
else by the disk. -/
theorem Project.imports_view (d : Disk) (p : Project) (file : Path) :
    Id.run ((p.view d).imports file)
      = ((p.files.reverse.find? fun f => f.path.normalize = file.normalize).map
          ParsedFile.imports).getD (ParseCache.read d { root := p.root } file.normalize) := by
  show (TraceIndex.freshMemory p).parses.answer d file.normalize = _
  rw [ParseCache.answer, TraceIndex.freshMemory, ParseCache.get?_seed, ParseCache.read,
    ParseCache.display, ParseCache.root_seed]
  cases p.files.reverse.find? fun f => f.path.normalize = file.normalize <;> rfl

/-- **A memory of the project answers as the view of the project.** -/
theorem Project.answers_view (d : Disk) (p : Project) :
    View.Answers (Memory.Agrees d (TraceIndex.freshMemory p).parses)
      (Memory.view d fun file => file.displayedFrom p.root) (p.view d) where
  imports := Memory.answers_imports d _
  resolve := Memory.answers_resolve d _
  display := rfl

namespace TraceIndex

/-- What is kept of an import that is followed. -/
def kept? (view : View Id) (maxDepth : Nat) :
    Nat × Nat × Path × ImportRecord → Option TracedImport
  | (fileIndex, recordIndex, path, r) =>
    let outcome := Id.run (Trace.trace view maxDepth r path)
    if outcome.isEmpty then none else some { fileIndex, recordIndex, outcome }

/-- Imports are followed one by one. -/
theorem follow_eq_filterMap (view : View Id) (maxDepth : Nat)
    (targets : List (Nat × Nat × Path × ImportRecord)) :
    Id.run (follow view maxDepth targets) = targets.filterMap (kept? view maxDepth) := by
  induction targets with
  | nil => rfl
  | cons target targets ih =>
    obtain ⟨fileIndex, recordIndex, path, r⟩ := target
    rw [List.filterMap_cons, ← ih, kept?]
    show (if (Id.run (Trace.trace view maxDepth r path)).isEmpty then _ else _) = _
    cases (Id.run (Trace.trace view maxDepth r path)).isEmpty <;> rfl

theorem answers_follow {σ : Type} {good : σ → Prop} {asked : View (StateM σ)} {view : View Id}
    (h : View.Answers good asked view) (maxDepth : Nat)
    (targets : List (Nat × Nat × Path × ImportRecord)) :
    Answers good (follow asked maxDepth targets) (Id.run (follow view maxDepth targets)) := by
  induction targets with
  | nil => exact .pure _
  | cons target targets ih =>
    obtain ⟨fileIndex, recordIndex, path, r⟩ := target
    exact (Trace.answers_trace h maxDepth r path).bind (ih.bind (.pure _))

/-- **The traces of a project are those of its view**, import by import. -/
theorem build_eq (d : Disk) (maxDepth : Nat) (p : Project) :
    build d maxDepth p
      = ofTraced ((targets p.files).filterMap (kept? (p.view d) maxDepth)) := by
  have hfresh : Memory.Agrees d (freshMemory p).parses (freshMemory p) :=
    ⟨ExistenceCache.agrees_empty d, fun _ => rfl⟩
  have hanswer := (answers_follow (p.answers_view d) maxDepth (targets p.files) _ hfresh).1
  rw [build, ← follow_eq_filterMap, ← hanswer]

end TraceIndex
end DependencyUse
