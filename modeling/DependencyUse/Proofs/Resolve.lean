/-
# What is remembered of which paths are files

Specifiers are resolved and paths are asked for, the memory is cleared and the disk
changes, in any order.  To resolve a specifier means to test one path after the other
until one is a file, so how much is remembered hangs on earlier answers.  Still every test
is answered by one rule:

| tests of a path with the same steps since the memory was cleared | answer |
| --- | --- |
| some | what the disk said at the first of them |
| none | what the disk says now |

The tests are kept in a record beside the memory.  The record is made by the same steps that
resolve a specifier, with a test that is written down in the place of a test (`resolveBy`),
so it forgets to what happens without a record (`Records`).  What is remembered is what the
record says (`Sound`), and every test keeps it so.

Nothing of this shows as long as the disk stays as it is and only tidy paths are tested, as
when specifiers are resolved: then each one is resolved as the disk does it.
-/

import DependencyUse.Proofs.Reexport.Memory
import Mathlib.Data.List.DropRight
import Mathlib.Data.List.Induction

namespace DependencyUse
namespace ExistenceCache

/-- A test whether a path is a file, the disk at that time, and the answer. -/
structure Test where
  path : Path
  disk : Disk
  answer : Bool

/-- What can happen to a memory. -/
inductive Mark where
  | tested (t : Test)
  | cleared

namespace Mark

def isTest : Mark → Bool
  | .tested _ => true
  | .cleared => false

def test? : Mark → Option Test
  | .tested t => some t
  | .cleared => none

end Mark

/-- The tests since the memory was cleared, or since the start. -/
def sinceCleared (marks : List Mark) : List Test :=
  (marks.rtakeWhile Mark.isTest).filterMap Mark.test?

/-- What the disk said at the first test of a path with the same steps. -/
def firstSaid? (tests : List Test) (p : Path) : Option Bool :=
  (tests.find? fun t => t.path.steps = p.steps).map fun t => t.disk.isFile t.path

/-- A memory and the record of what happened to it. -/
structure Recorded where
  cache : ExistenceCache := {}
  marks : List Mark := []

/-- A test that is written down. -/
def test (d : Disk) (p : Path) : StateM Recorded Bool := do
  let s ← get
  let (answer, cache) := (isFile d p).run s.cache
  set { cache, marks := s.marks ++ [.tested ⟨p, d, answer⟩] : Recorded }
  return answer

/-- The first of some paths that a test finds to be a file. -/
def firstBy {m : Type → Type} [Monad m] (test : Path → m Bool) : List Path → m (Option Path)
  | [] => return none
  | p :: ps => do
    if ← test p then return some p else firstBy test ps

/-- The file that a specifier in a file names, by a test. -/
def resolveBy {m : Type → Type} [Monad m] (test : Path → m Bool) (specifier : String)
    (source : Path) : m (Option Path) :=
  if isRelative specifier then firstBy test (source.relativeTarget specifier).candidates
  else return none

/-- Something that happens while files are remembered. -/
inductive Event where
  /-- a specifier in a file is resolved -/
  | resolve (specifier : String) (source : Path)
  /-- it is asked whether a path is a file -/
  | ask (p : Path)
  | clear
  /-- the disk is another one from now on -/
  | change (d : Disk)

/-- A memory, and the disk as it is now. -/
structure Session (σ : Type) where
  disk : Disk
  memory : σ

namespace Event

/-- What an event leaves. -/
def apply (s : Session ExistenceCache) : Event → Session ExistenceCache
  | .resolve specifier source =>
    { s with memory := ((ExistenceCache.resolve s.disk specifier source).run s.memory).2 }
  | .ask p => { s with memory := ((isFile s.disk p).run s.memory).2 }
  | .clear => { s with memory := {} }
  | .change d => { s with disk := d }

/-- What an event leaves, with every test written down. -/
def record (s : Session Recorded) : Event → Session Recorded
  | .resolve specifier source =>
    { s with memory := ((resolveBy (test s.disk) specifier source).run s.memory).2 }
  | .ask p => { s with memory := ((test s.disk p).run s.memory).2 }
  | .clear => { s with memory := { marks := s.memory.marks ++ [.cleared] } }
  | .change d => { s with disk := d }

def isClear : Event → Bool
  | .clear => true
  | _ => false

/-- A specifier is resolved, or a tidy path is tested. -/
def IsCall : Event → Prop
  | .resolve _ _ => True
  | .ask p => p.IsTidy
  | .clear | .change _ => False

end Event

/-- What some events leave of a new memory. -/
def after (d : Disk) (events : List Event) : Session ExistenceCache :=
  events.foldl Event.apply ⟨d, {}⟩

/-- What some events leave of a new memory, with every test written down. -/
def recordAfter (d : Disk) (events : List Event) : Session Recorded :=
  events.foldl Event.record ⟨d, {}⟩

/-! ## The record says what is remembered -/

theorem sinceCleared_tested (marks : List Mark) (t : Test) :
    sinceCleared (marks ++ [.tested t]) = sinceCleared marks ++ [t] := by
  rw [sinceCleared, List.rtakeWhile_concat_pos _ _ _ rfl, List.filterMap_append]
  rfl

theorem sinceCleared_cleared (marks : List Mark) : sinceCleared (marks ++ [.cleared]) = [] := by
  rw [sinceCleared, List.rtakeWhile_concat_neg _ _ _ (by decide)]
  rfl

theorem firstSaid?_concat (tests : List Test) (t : Test) (p : Path) :
    firstSaid? (tests ++ [t]) p
      = (firstSaid? tests p).or
          (if t.path.steps = p.steps then some (t.disk.isFile t.path) else none) := by
  rw [firstSaid?, List.find?_append, Option.map_or, ← firstSaid?]
  by_cases h : t.path.steps = p.steps <;> simp [h]

theorem get?_congr (c : ExistenceCache) {p q : Path} (h : p.steps = q.steps) :
    c.get? p = c.get? q := by
  rw [get?, get?, h]

/-- The answer to a test. -/
def said (marks : List Mark) (d : Disk) (p : Path) : Bool :=
  (firstSaid? (sinceCleared marks) p).getD (d.isFile p)

/-- Every test of a record has the answer that the record before it gives. -/
def Answered (marks : List Mark) : Prop :=
  ∀ earlier t later, marks = earlier ++ .tested t :: later → t.answer = said earlier t.disk t.path

theorem Answered.concat {marks : List Mark} (h : Answered marks) {m : Mark}
    (hlast : ∀ t, m = .tested t → t.answer = said marks t.disk t.path) :
    Answered (marks ++ [m]) := by
  intro earlier t later hmarks
  rcases List.eq_nil_or_concat later with rfl | ⟨later, last, rfl⟩
  · obtain ⟨rfl, hm⟩ := List.append_inj' hmarks rfl
    exact hlast t (List.singleton_inj.1 hm)
  · have hfront : marks ++ [m] = (earlier ++ .tested t :: later) ++ [last] := by simpa using hmarks
    exact h earlier t later (List.append_inj' hfront rfl).1

/-- What is remembered is what the disk said at the first tests, and so is every answer. -/
structure Sound (s : Recorded) : Prop where
  remembered : ∀ p, s.cache.get? p = firstSaid? (sinceCleared s.marks) p
  answered : Answered s.marks

theorem sound_empty : Sound {} where
  remembered _ := rfl
  answered earlier t later h := by simp at h

theorem Sound.cleared {s : Recorded} (h : Sound s) :
    Sound { marks := s.marks ++ [.cleared] } where
  remembered p := by
    rw [sinceCleared_cleared]
    rfl
  answered := h.answered.concat nofun

/-- What a test does to a memory: it is answered by the rule, and an answer of the disk is
remembered. -/
theorem run_isFile_of_sound {s : Recorded} (h : Sound s) (d : Disk) (p : Path) :
    ((isFile d p).run s.cache).1 = said s.marks d p ∧
      ∀ q, ((isFile d p).run s.cache).2.get? q
        = (s.cache.get? q).or (if p.steps = q.steps then some (d.isFile p) else none) := by
  rw [said, ← h.remembered]
  cases hget : s.cache.get? p with
  | some answer =>
    rw [run_isFile_of_some hget]
    refine ⟨rfl, fun q => ?_⟩
    by_cases hsame : p.steps = q.steps
    · rw [← get?_congr _ hsame, hget]
      rfl
    · rw [if_neg hsame, Option.or_none]
  | none =>
    rw [run_isFile_of_none hget]
    refine ⟨rfl, fun q => ?_⟩
    rw [get?_cons]
    by_cases hsame : p.steps = q.steps
    · rw [if_pos hsame.symm, if_pos hsame, ← get?_congr _ hsame, hget]
      rfl
    · rw [if_neg (Ne.symm hsame), if_neg hsame, Option.or_none]

theorem Sound.tested {s : Recorded} (h : Sound s) (d : Disk) (p : Path) :
    Sound { cache := ((isFile d p).run s.cache).2
            marks := s.marks ++ [.tested ⟨p, d, ((isFile d p).run s.cache).1⟩] } where
  remembered q := by
    rw [(run_isFile_of_sound h d p).2, sinceCleared_tested, firstSaid?_concat, h.remembered]
  answered := h.answered.concat fun t ht => by
    cases ht
    exact (run_isFile_of_sound h d p).1

/-! ## The record forgets to what happens -/

/-- On every sound memory the first action does what the second does, and leaves a sound one. -/
def Records {α : Type} (x : StateM Recorded α) (y : StateM ExistenceCache α) : Prop :=
  ∀ s, Sound s → (x.run s).1 = (y.run s.cache).1 ∧ (x.run s).2.cache = (y.run s.cache).2 ∧
    Sound (x.run s).2

namespace Records

variable {α β : Type}

theorem pure (a : α) : Records (Pure.pure a) (Pure.pure a) :=
  fun _ hs => ⟨rfl, rfl, hs⟩

theorem bind {x : StateM Recorded α} {y : StateM ExistenceCache α} {f : α → StateM Recorded β}
    {g : α → StateM ExistenceCache β} (hx : Records x y) (hf : ∀ a, Records (f a) (g a)) :
    Records (x >>= f) (y >>= g) := by
  intro s hs
  obtain ⟨hanswer, hcache, hsound⟩ := hx s hs
  have hrest := hf (x.run s).1 (x.run s).2 hsound
  rw [hcache] at hrest
  show ((f (x.run s).1).run (x.run s).2).1 = ((g (y.run s.cache).1).run (y.run s.cache).2).1 ∧
    ((f (x.run s).1).run (x.run s).2).2.cache = ((g (y.run s.cache).1).run (y.run s.cache).2).2 ∧
    Sound ((f (x.run s).1).run (x.run s).2).2
  rw [← hanswer]
  exact hrest

theorem test (d : Disk) (p : Path) : Records (ExistenceCache.test d p) (isFile d p) :=
  fun _ hs => ⟨rfl, rfl, hs.tested d p⟩

theorem firstBy (d : Disk) (ps : List Path) :
    Records (ExistenceCache.firstBy (ExistenceCache.test d) ps) (firstFile d ps) := by
  induction ps with
  | nil => exact .pure none
  | cons p ps ih =>
    refine (test d p).bind fun answer => ?_
    cases answer with
    | true => exact .pure _
    | false => exact ih

theorem resolveBy (d : Disk) (specifier : String) (source : Path) :
    Records (ExistenceCache.resolveBy (ExistenceCache.test d) specifier source)
      (resolve d specifier source) := by
  unfold ExistenceCache.resolveBy resolve
  split
  · exact firstBy d _
  · exact .pure none

end Records

theorem after_concat (d : Disk) (events : List Event) (e : Event) :
    after d (events ++ [e]) = e.apply (after d events) := by
  rw [after, List.foldl_append]
  rfl

theorem recordAfter_concat (d : Disk) (events : List Event) (e : Event) :
    recordAfter d (events ++ [e]) = e.record (recordAfter d events) := by
  rw [recordAfter, List.foldl_append]
  rfl

/-- **A record forgets to what happens without one, and says what is remembered.** -/
theorem recordAfter_spec (d : Disk) (events : List Event) :
    (recordAfter d events).disk = (after d events).disk ∧
      (recordAfter d events).memory.cache = (after d events).memory ∧
      Sound (recordAfter d events).memory := by
  induction events using List.reverseRecOn with
  | nil => exact ⟨rfl, rfl, sound_empty⟩
  | append_singleton events e ih =>
    obtain ⟨hdisk, hcache, hsound⟩ := ih
    rw [recordAfter_concat, after_concat]
    cases e with
    | resolve specifier source =>
      have hrun := Records.resolveBy (after d events).disk specifier source _ hsound
      rw [Event.record, Event.apply, hdisk, ← hcache]
      exact ⟨rfl, hrun.2⟩
    | ask p =>
      have hrun := Records.test (after d events).disk p _ hsound
      rw [Event.record, Event.apply, hdisk, ← hcache]
      exact ⟨rfl, hrun.2⟩
    | clear => exact ⟨hdisk, rfl, hsound.cleared⟩
    | change d => exact ⟨rfl, hcache, hsound⟩

/-! ## Resolved specifiers -/

/-- **A specifier is resolved by the rule for tests**: of the paths that it may mean, the first
one counts that is answered to be a file. -/
theorem resolve_of_sound {s : Recorded} (h : Sound s) (d : Disk) (specifier : String)
    (source : Path) :
    ((resolve d specifier source).run s.cache).1
      = if isRelative specifier then
          (source.relativeTarget specifier).candidates.find? (said s.marks d)
        else none := by
  have hsaid : said s.marks d = fun p => (s.cache.get? p).getD (d.isFile p) := by
    funext p
    rw [said, h.remembered]
  unfold resolve
  split
  · rw [hsaid]
    have hanswers : Answers (AnswersAs d s.cache) (firstFile d _) _ :=
      answers_firstFile fun p (hp : p ∈ (source.relativeTarget specifier).candidates) =>
        answers_isFile_as d s.cache (Path.isTidy_of_mem_candidates hp)
    exact (hanswers s.cache fun _ _ => rfl).1
  · rfl

/-- **The disk agrees with what is remembered** as long as it does not change and only tidy
paths are tested. -/
theorem agrees_after {d : Disk} {events : List Event}
    (h : ∀ e ∈ events.rtakeWhile (fun e => !e.isClear), e.IsCall) :
    Agrees (after d events).disk (after d events).memory := by
  induction events using List.reverseRecOn with
  | nil => exact agrees_empty d
  | append_singleton events e ih =>
    rw [after_concat]
    cases e with
    | clear => exact agrees_empty _
    | change d' => exact (h (.change d') (by simp [List.rtakeWhile, Event.isClear])).elim
    | resolve specifier source =>
      rw [List.rtakeWhile_concat_pos _ _ _ rfl] at h
      have hbefore := ih fun e he => h e (List.mem_append_left _ he)
      exact (answers_resolve _ specifier source _ hbefore).2
    | ask p =>
      rw [List.rtakeWhile_concat_pos _ _ _ rfl] at h
      have hbefore := ih fun e he => h e (List.mem_append_left _ he)
      have hp : p.IsTidy := h (.ask p) (by simp)
      exact (answers_isFile _ hp _ hbefore).2

/-- **Tests are answered by the first test since the memory was cleared.**  Specifiers are
resolved, paths are asked for, the memory is cleared and the disk changes, in any order.  The
record of all tests forgets to what happens without it, and each test in it is answered as the
disk said at the first test, since the memory was cleared, of a path with the same steps.  So
is the next one; and a specifier is resolved to the first of its candidates that is answered
to be a file.  If since the clearing the disk did not change and only specifiers were resolved
or tidy paths tested, then it is resolved as on the disk. -/
theorem resolve_by_first_tests (d : Disk) (events : List Event) :
    (recordAfter d events).memory.cache = (after d events).memory ∧
    (∀ earlier t later, (recordAfter d events).memory.marks = earlier ++ .tested t :: later →
      t.answer = (firstSaid? (sinceCleared earlier) t.path).getD (t.disk.isFile t.path)) ∧
    (∀ p, ((isFile (after d events).disk p).run (after d events).memory).1
      = said (recordAfter d events).memory.marks (after d events).disk p) ∧
    (∀ specifier source,
      ((resolve (after d events).disk specifier source).run (after d events).memory).1
        = if isRelative specifier then (source.relativeTarget specifier).candidates.find?
            (said (recordAfter d events).memory.marks (after d events).disk)
          else none) ∧
    ((∀ e ∈ events.rtakeWhile (fun e => !e.isClear), e.IsCall) → ∀ specifier source,
      ((resolve (after d events).disk specifier source).run (after d events).memory).1
        = (after d events).disk.resolve? specifier source) := by
  obtain ⟨-, hcache, hsound⟩ := recordAfter_spec d events
  refine ⟨hcache, hsound.answered, fun p => ?_, fun specifier source => ?_,
    fun hcalls specifier source => ?_⟩
  · rw [← hcache]
    exact (run_isFile_of_sound hsound _ p).1
  · rw [← hcache]
    exact resolve_of_sound hsound _ specifier source
  · exact (answers_resolve _ specifier source _ (agrees_after hcalls)).1

/-- The hypotheses are satisfiable where the memory is behind the disk: `./b` is resolved in
`/a.ts`, and then `/b.ts` appears.  The specifier still names `/b.js`, and `/b.ts` is still said
to be no file; after a clearing and one more resolution it names `/b.ts`. -/
theorem resolve_by_first_tests_appearing :
    let old : Disk := ⟨.dir [("a.ts", .file (.text "")), ("b.js", .file (.text ""))], [], none, none⟩
    let new : Disk := ⟨.dir [("a.ts", .file (.text "")), ("b.js", .file (.text "")),
      ("b.ts", .file (.text ""))], [], none, none⟩
    let early : List Event := [.resolve "./b" ⟨"/a.ts"⟩, .change new]
    let late : List Event := early ++ [.clear, .resolve "./b" ⟨"/a.ts"⟩]
    let behind := after old early
    let even := after old late
    (∀ e ∈ late.rtakeWhile (fun e => !e.isClear), e.IsCall) ∧
      ((resolve behind.disk "./b" ⟨"/a.ts"⟩).run behind.memory).1 = some ⟨"/b.js"⟩ ∧
      ((isFile behind.disk ⟨"//b.ts"⟩).run behind.memory).1 = false ∧
      ((resolve even.disk "./b" ⟨"/a.ts"⟩).run even.memory).1 = some ⟨"/b.ts"⟩ := by
  intro old new early late behind even
  have hcalls : ∀ e ∈ late.rtakeWhile (fun e => !e.isClear), e.IsCall := by
    simp [late, early, List.rtakeWhile, Event.isClear, Event.IsCall]
  obtain ⟨-, -, hasked, hresolved, -⟩ := resolve_by_first_tests old early
  obtain ⟨-, -, -, -, hplain⟩ := resolve_by_first_tests old late
  refine ⟨hcalls, ?_, ?_, ?_⟩
  · rw [hresolved]
    decide +kernel
  · rw [hasked]
    decide +kernel
  · rw [hplain hcalls]
    decide +kernel

end ExistenceCache
end DependencyUse
