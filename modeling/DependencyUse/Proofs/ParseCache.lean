/-
# What is remembered of imports

Files are put in, imports are asked for, and the disk changes in between, in any order.
What is remembered afterwards hangs on all that happened, but little of it matters for
the next answer:

| what happened to the normal form of a path | its imports |
| --- | --- |
| it was put in | those that were put in last |
| it was asked for, and never put in | those on the disk when it was first asked for |
| nothing | those on the disk now |

A path is known by the steps of its normal form.  A question leaves an entry for its path and
touches no other (`get?_ask`), and by induction on the events the entry is the one of the
table (`get?_after`).  A question is missed if nothing happened to its path before, so the
misses can be read off the events too (`misses_after`).
-/

import DependencyUse.Proofs.Reexport.Memory
import Mathlib.Data.Finset.Card
import Mathlib.Data.List.Induction

namespace DependencyUse

/-- The steps of the normal form. -/
def Path.normalSteps (p : Path) : List Path.Step :=
  p.normalize.steps

theorem Path.normalSteps_eq_iff {p q : Path} :
    p.normalSteps = q.normalSteps ↔ p.normalize = q.normalize :=
  ⟨(isTidy_normalize p).eq_of_steps_eq (isTidy_normalize q), congrArg steps⟩

namespace ParseCache

/-- Something that happens while imports are remembered. -/
inductive Event where
  /-- the imports of some files are put in -/
  | seed (files : List ParsedFile)
  /-- the imports of a file are asked for -/
  | ask (path : Path)
  /-- the disk is another one from now on -/
  | change (d : Disk)

/-- What is remembered, and the disk as it is now. -/
structure Session where
  disk : Disk
  cache : ParseCache

/-- What an event leaves. -/
def Event.apply (s : Session) : Event → Session
  | .seed files => { s with cache := s.cache.seed files }
  | .ask path => { s with cache := ((imports s.disk path).run s.cache).2 }
  | .change d => { s with disk := d }

/-- What some events leave of a new memory. -/
def after (root : Path) (d : Disk) (events : List Event) : Session :=
  events.foldl Event.apply ⟨d, { root }⟩

namespace Event

/-- The files that an event puts in. -/
def seeded : Event → List ParsedFile
  | .seed files => files
  | _ => []

/-- The path that an event asks for. -/
def asked? : Event → Option Path
  | .ask path => some path
  | _ => none

/-- The paths that an event puts in or asks for. -/
def paths (e : Event) : List Path :=
  e.seeded.map ParsedFile.path ++ e.asked?.toList

end Event

/-- The normal forms that some events put in or ask for, by their steps. -/
def known (events : List Event) : List (List Path.Step) :=
  (events.flatMap Event.paths).map Path.normalSteps

/-- The imports that were put in last for a path. -/
def lastSeeded? (events : List Event) (path : Path) : Option (List ImportRecord) :=
  ((events.flatMap Event.seeded).reverse.find? fun f =>
    f.path.normalSteps = path.normalSteps).map ParsedFile.imports

/-- The disk as it was when a path was first asked for. -/
def diskAtFirstAsk? (path : Path) (d : Disk) : List Event → Option Disk
  | [] => none
  | .ask p :: events =>
    if p.normalSteps = path.normalSteps then some d else diskAtFirstAsk? path d events
  | .seed _ :: events => diskAtFirstAsk? path d events
  | .change d :: events => diskAtFirstAsk? path d events

/-- The imports that a disk has for a path; none if the file cannot be read. -/
def importsOn (root : Path) (d : Disk) (path : Path) : List ImportRecord :=
  (d.parseImports path.normalize (path.normalize.displayedFrom root)).toOption.getD []

/-- The places of the questions for a path to which nothing happened before. -/
def missed (events : List Event) : List Nat :=
  (List.range events.length).filter fun i =>
    (events[i]?.bind Event.asked?).any fun path => path.normalSteps ∉ known (events.take i)

/-! ## One event -/

theorem read_eq (d : Disk) (c : ParseCache) (path : Path) :
    read d c path.normalize = importsOn c.root d path := by
  rw [read, importsOn, display]
  cases d.parseImports path.normalize (path.normalize.displayedFrom c.root) <;> rfl

/-- Putting files in changes nothing but the entries. -/
theorem seed_eq (c : ParseCache) (files : List ParsedFile) :
    c.seed files = { c with
      entries := files.foldl (fun es f => put f.path.normalize f.imports es) c.entries } := by
  induction files generalizing c with
  | nil => rfl
  | cons f files ih => exact ih (c.seedOne f.path f.imports)

/-- **A question leaves an entry for its path**, the one that is answered. -/
theorem get?_ask (d : Disk) (c : ParseCache) (p path : Path) :
    ((imports d p).run c).2.get? path.normalize
      = if p.normalSteps = path.normalSteps then
          some ((c.get? path.normalize).getD (importsOn c.root d path))
        else c.get? path.normalize := by
  simp only [Path.normalSteps_eq_iff]
  cases hget : c.get? p.normalize with
  | some records =>
    rw [run_imports_of_some hget]
    split
    · rename_i hsame
      rw [← hsame, hget]
      exact hget
    · rfl
  | none =>
    rw [run_imports_of_none hget, get?, lookup_put]
    by_cases hsame : p.normalize = path.normalize
    · rw [if_pos hsame.symm, if_pos hsame, ← hsame, hget, hsame, read_eq]
      rfl
    · rw [if_neg (Ne.symm hsame), if_neg hsame]
      rfl

theorem answer_ask (d : Disk) (c : ParseCache) (path : Path) :
    ((imports d path).run c).1
      = (c.get? path.normalize).getD (importsOn c.root d path) := by
  cases hget : c.get? path.normalize with
  | some records => rw [run_imports_of_some hget]; rfl
  | none => rw [run_imports_of_none hget, read_eq]; rfl

theorem root_ask (d : Disk) (c : ParseCache) (path : Path) :
    ((imports d path).run c).2.root = c.root := by
  cases hget : c.get? path.normalize with
  | some records => rw [run_imports_of_some hget]
  | none => rw [run_imports_of_none hget]

theorem after_concat (root : Path) (d : Disk) (events : List Event) (e : Event) :
    after root d (events ++ [e]) = e.apply (after root d events) := by
  rw [after, List.foldl_append]
  rfl

theorem root_after (root : Path) (d : Disk) (events : List Event) :
    (after root d events).cache.root = root := by
  induction events using List.reverseRecOn with
  | nil => rfl
  | append_singleton events e ih =>
    rw [after_concat]
    cases e with
    | seed files => exact (root_seed _ files).trans ih
    | ask path => exact (root_ask _ _ path).trans ih
    | change d => exact ih

/-! ## All events -/

theorem lastSeeded?_concat (events : List Event) (e : Event) (path : Path) :
    lastSeeded? (events ++ [e]) path
      = ((e.seeded.reverse.find? fun f => f.path.normalSteps = path.normalSteps).map
          ParsedFile.imports).or (lastSeeded? events path) := by
  simp [lastSeeded?, List.find?_append, Option.map_or]

/-- The first time that a path was asked for is among the first events, or else among the
others. -/
theorem diskAtFirstAsk?_append (path : Path) (s : Session) (events more : List Event) :
    diskAtFirstAsk? path s.disk (events ++ more)
      = (diskAtFirstAsk? path s.disk events).or
          (diskAtFirstAsk? path (events.foldl Event.apply s).disk more) := by
  induction events generalizing s with
  | nil => rfl
  | cons e events ih =>
    have hrest := ih (e.apply s)
    cases e with
    | seed files => exact hrest
    | change d => exact hrest
    | ask p =>
      rw [List.cons_append, diskAtFirstAsk?, diskAtFirstAsk?]
      split
      · rfl
      · exact hrest

/-- What the events say of the entry of a path. -/
def entryAfter? (root : Path) (d : Disk) (events : List Event) (path : Path) :
    Option (List ImportRecord) :=
  (lastSeeded? events path).or
    ((diskAtFirstAsk? path d events).map fun then_ => importsOn root then_ path)

/-- **The entry of a path** is the one that the events say. -/
theorem get?_after (root : Path) (d : Disk) (events : List Event) (path : Path) :
    (after root d events).cache.get? path.normalize = entryAfter? root d events path := by
  induction events using List.reverseRecOn with
  | nil => rfl
  | append_singleton events e ih =>
    have hdisk := diskAtFirstAsk?_append path ⟨d, { root }⟩ events [e]
    rw [after_concat, entryAfter?, lastSeeded?_concat, hdisk]
    cases e with
    | seed files =>
      show (ParseCache.seed _ files).get? _ = _
      rw [get?_seed, ih, entryAfter?, ← Option.or_assoc]
      simp [← Path.normalSteps_eq_iff, Event.seeded, diskAtFirstAsk?]
    | change d' => simpa [Event.apply, Event.seeded, diskAtFirstAsk?, entryAfter?] using ih
    | ask p =>
      show ((imports _ p).run _).2.get? _ = _
      rw [get?_ask, ih, root_after, entryAfter?]
      show _ = (none.or (lastSeeded? events path)).or
        (((diskAtFirstAsk? path d events).or
          (if p.normalSteps = path.normalSteps then some (after root d events).disk
            else none)).map _)
      by_cases hsame : p.normalSteps = path.normalSteps
      · rw [if_pos hsame, if_pos hsame]
        cases lastSeeded? events path <;> cases diskAtFirstAsk? path d events <;> rfl
      · rw [if_neg hsame, if_neg hsame, Option.none_or, Option.or_none]

/-! ## What is counted -/

theorem lastSeeded?_eq_none_iff {events : List Event} {path : Path} :
    lastSeeded? events path = none ↔
      ∀ f ∈ events.flatMap Event.seeded, f.path.normalSteps ≠ path.normalSteps := by
  simp [lastSeeded?]

theorem diskAtFirstAsk?_eq_none_iff {events : List Event} {path : Path} {d : Disk} :
    diskAtFirstAsk? path d events = none ↔
      ∀ p, Event.ask p ∈ events → p.normalSteps ≠ path.normalSteps := by
  induction events generalizing d with
  | nil => simp [diskAtFirstAsk?]
  | cons e events ih =>
    cases e with
    | seed files => simp [diskAtFirstAsk?, ih]
    | change d => simp [diskAtFirstAsk?, ih]
    | ask p =>
      rw [diskAtFirstAsk?]
      by_cases hsame : p.normalSteps = path.normalSteps
      · simp [hsame]
      · simp [hsame, ih]

/-- **There is no entry for a path** to which nothing happened. -/
theorem get?_after_eq_none_iff {root : Path} {d : Disk} {events : List Event} {path : Path} :
    (after root d events).cache.get? path.normalize = none ↔
      path.normalSteps ∉ known events := by
  rw [get?_after, entryAfter?, Option.or_eq_none_iff, Option.map_eq_none_iff,
    lastSeeded?_eq_none_iff, diskAtFirstAsk?_eq_none_iff]
  simp only [known, Event.paths, List.mem_map, List.mem_flatMap, List.mem_append,
    Option.mem_toList]
  constructor
  · rintro ⟨hseeded, hasked⟩ ⟨p, ⟨e, he, hp⟩, hsame⟩
    rcases hp with ⟨f, hf, rfl⟩ | hp
    · exact hseeded f ⟨e, he, hf⟩ hsame
    · cases e with
      | ask q =>
        cases hp
        exact hasked p he hsame
      | _ => cases hp
  · intro hnot
    refine ⟨fun f ⟨e, he, hf⟩ hsame => ?_, fun p hp hsame => ?_⟩
    · exact hnot ⟨f.path, ⟨e, he, .inl ⟨f, hf, rfl⟩⟩, hsame⟩
    · exact hnot ⟨p, ⟨_, hp, .inr rfl⟩, hsame⟩

theorem mem_known_of_get? {root : Path} {d : Disk} {events : List Event} {path : Path}
    {records : List ImportRecord}
    (hget : (after root d events).cache.get? path.normalize = some records) :
    path.normalSteps ∈ known events := by
  by_contra hnot
  rw [get?_after_eq_none_iff.2 hnot] at hget
  cases hget

theorem missed_concat (events : List Event) (e : Event) :
    missed (events ++ [e]) = missed events
      ++ if e.asked?.any (fun path => path.normalSteps ∉ known events) then [events.length]
        else [] := by
  rw [missed, missed, List.length_append, List.length_singleton, List.range_succ,
    List.filter_append]
  refine congrArg₂ (· ++ ·) (List.filter_congr fun i hi => ?_) ?_
  · rw [List.mem_range] at hi
    rw [List.getElem?_append_left hi, List.take_append_of_le_length hi.le]
  · rw [List.filter_singleton]
    simp

/-- **A question is missed** if nothing happened to its path before. -/
theorem misses_after (root : Path) (d : Disk) (events : List Event) :
    (after root d events).cache.misses = (missed events).length := by
  induction events using List.reverseRecOn with
  | nil => rfl
  | append_singleton events e ih =>
    rw [after_concat, missed_concat, List.length_append, ← ih]
    cases e with
    | seed files =>
      show (ParseCache.seed _ files).misses = _
      rw [seed_eq]
      rfl
    | change d => rfl
    | ask p =>
      show ((imports _ p).run _).2.misses = _
      cases hget : (after root d events).cache.get? p.normalize with
      | some records =>
        rw [run_imports_of_some hget]
        simp [Event.asked?, mem_known_of_get? hget]
      | none =>
        rw [run_imports_of_none hget]
        simp [Event.asked?, get?_after_eq_none_iff.1 hget]

/-- **Every question is a hit or a miss**, and nothing else is. -/
theorem hits_add_misses_after (root : Path) (d : Disk) (events : List Event) :
    (after root d events).cache.hits + (after root d events).cache.misses
      = events.countP fun e => e.asked?.isSome := by
  induction events using List.reverseRecOn with
  | nil => rfl
  | append_singleton events e ih =>
    rw [after_concat, List.countP_append, ← ih]
    cases e with
    | seed files =>
      show (ParseCache.seed _ files).hits + (ParseCache.seed _ files).misses = _
      rw [seed_eq]
      rfl
    | change d => rfl
    | ask p =>
      show ((imports _ p).run _).2.hits + ((imports _ p).run _).2.misses = _ + 1
      cases hget : (after root d events).cache.get? p.normalize with
      | some records =>
        rw [run_imports_of_some hget]
        simp only
        omega
      | none =>
        rw [run_imports_of_none hget]
        simp only
        omega

theorem mem_missed {events : List Event} {i : Nat} {path : Path}
    (hask : events[i]? = some (.ask path)) :
    i ∈ missed events ↔ path.normalSteps ∉ known (events.take i) := by
  have hlt : i < events.length := (List.getElem?_eq_some_iff.1 hask).1
  rw [missed, List.mem_filter, List.mem_range, hask]
  simp [hlt, Event.asked?]

/-- **A path is missed once.** -/
theorem eq_of_mem_missed {events : List Event} {i j : Nat} {p q : Path}
    (hp : events[i]? = some (.ask p)) (hq : events[j]? = some (.ask q))
    (hi : i ∈ missed events) (hj : j ∈ missed events) (hsame : p.normalSteps = q.normalSteps) :
    i = j := by
  -- the earlier of two questions for a path makes the path known to the later one
  have hknown : ∀ {i j : Nat} {p q : Path}, events[i]? = some (.ask p) →
      p.normalSteps = q.normalSteps → i < j → q.normalSteps ∈ known (events.take j) := by
    intro i j p q hp hsame hlt
    refine List.mem_map.2 ⟨p, List.mem_flatMap.2 ⟨.ask p, ?_, ?_⟩, hsame⟩
    · exact List.mem_of_getElem? ((List.getElem?_take_of_lt hlt).trans hp)
    · simp [Event.paths, Event.seeded, Event.asked?]
  rcases Nat.lt_trichotomy i j with hlt | heq | hlt
  · exact absurd (hknown hp hsame hlt) ((mem_missed hq).1 hj)
  · exact heq
  · exact absurd (hknown hq hsame.symm hlt) ((mem_missed hp).1 hi)

/-- There is one entry for each normal form of the paths, and no other. -/
structure EntriesOf (paths : List Path) (entries : List (Path × List ImportRecord)) : Prop where
  nodup : (entries.map Prod.fst).Nodup
  mem_iff : ∀ key, key ∈ entries.map Prod.fst ↔ ∃ p ∈ paths, p.normalize = key

theorem keys_put (key : Path) (records : List ImportRecord)
    (entries : List (Path × List ImportRecord)) :
    (put key records entries).map Prod.fst
      = if key ∈ entries.map Prod.fst then entries.map Prod.fst
        else entries.map Prod.fst ++ [key] := by
  induction entries with
  | nil => rfl
  | cons e entries ih =>
    rw [put]
    by_cases hkey : e.1 = key
    · simp [hkey]
    · rw [if_neg hkey, List.map_cons, ih]
      split <;> simp_all [Ne.symm hkey]

namespace EntriesOf

variable {paths : List Path} {entries : List (Path × List ImportRecord)}

/-- An entry that is there stands for more paths of its normal form. -/
theorem hit (h : EntriesOf paths entries) {path : Path}
    (hold : ∃ p ∈ paths, p.normalize = path.normalize) : EntriesOf (paths ++ [path]) entries := by
  refine ⟨h.nodup, fun key => (h.mem_iff key).trans ⟨?_, ?_⟩⟩
  · rintro ⟨p, hp, rfl⟩
    exact ⟨p, List.mem_append_left _ hp, rfl⟩
  · rintro ⟨p, hp, rfl⟩
    rcases List.mem_append.1 hp with hp | hp
    · exact ⟨p, hp, rfl⟩
    · rwa [List.mem_singleton.1 hp]

theorem put (h : EntriesOf paths entries) (path : Path) (records : List ImportRecord) :
    EntriesOf (paths ++ [path]) (ParseCache.put path.normalize records entries) := by
  by_cases hold : path.normalize ∈ entries.map Prod.fst
  · have hhit := h.hit ((h.mem_iff _).1 hold)
    constructor <;> rw [keys_put, if_pos hold]
    · exact hhit.nodup
    · exact hhit.mem_iff
  · constructor <;> rw [keys_put, if_neg hold]
    · exact List.nodup_append.2 ⟨h.nodup, List.nodup_singleton _, by
        rintro a ha b hb rfl
        exact hold (List.mem_singleton.1 hb ▸ ha)⟩
    · intro key
      rw [List.mem_append, h.mem_iff, List.mem_singleton]
      simp [or_and_right, exists_or, eq_comm]

theorem seed (h : EntriesOf paths entries) (files : List ParsedFile) :
    EntriesOf (paths ++ files.map ParsedFile.path)
      (files.foldl (fun es f => ParseCache.put f.path.normalize f.imports es) entries) := by
  induction files generalizing paths entries with
  | nil => simpa using h
  | cons f files ih => simpa using ih (h.put f.path f.imports)

/-- There are as many entries as normal forms. -/
theorem length_eq (h : EntriesOf paths entries) :
    entries.length = (paths.map Path.normalSteps).toFinset.card := by
  have hkeys : (entries.map Prod.fst).toFinset = (paths.map Path.normalize).toFinset := by
    ext key
    rw [List.mem_toFinset, List.mem_toFinset, h.mem_iff, List.mem_map]
  have hsteps : (paths.map Path.normalSteps).toFinset
      = (paths.map Path.normalize).toFinset.image Path.steps := by
    ext steps
    simp [Path.normalSteps]
  rw [hsteps, Finset.card_image_of_injOn, ← hkeys, List.toFinset_card_of_nodup h.nodup,
    List.length_map]
  intro a ha b hb hab
  obtain ⟨p, -, rfl⟩ := List.mem_map.1 (List.mem_toFinset.1 ha)
  obtain ⟨q, -, rfl⟩ := List.mem_map.1 (List.mem_toFinset.1 hb)
  exact Path.normalSteps_eq_iff.1 hab

end EntriesOf

/-- **Every path that was put in or asked for has an entry**, and no other path. -/
theorem entriesOf_after (root : Path) (d : Disk) (events : List Event) :
    EntriesOf (events.flatMap Event.paths) (after root d events).cache.entries := by
  induction events using List.reverseRecOn with
  | nil => exact ⟨List.nodup_nil, by simp [after]⟩
  | append_singleton events e ih =>
    rw [after_concat, List.flatMap_append, List.flatMap_singleton]
    cases e with
    | seed files =>
      show EntriesOf _ (ParseCache.seed _ files).entries
      rw [seed_eq, Event.paths]
      simpa [Event.seeded, Event.asked?] using ih.seed files
    | change d =>
      show EntriesOf (_ ++ []) _
      rw [List.append_nil]
      exact ih
    | ask p =>
      show EntriesOf (_ ++ [p]) ((imports _ p).run _).2.entries
      cases hget : (after root d events).cache.get? p.normalize with
      | some records =>
        obtain ⟨q, hq, hsame⟩ := List.mem_map.1 (mem_known_of_get? hget)
        rw [run_imports_of_some hget]
        exact ih.hit ⟨q, hq, Path.normalSteps_eq_iff.1 hsame⟩
      | none =>
        rw [run_imports_of_none hget]
        exact ih.put p _

/-- **Imports are answered by what happened.**  Files are put in, imports are asked for and
the disk changes, in any order, for whatever root.  Then a path has the imports that were put
in last for its normal form; if none were, those that were on the disk when the normal form
was first asked for, now or before, and none if the file could not be read then.  Hits and
misses together are the questions.  The misses are the questions whose normal form had no
entry, which is to say that nothing had happened to it, and there is at most one of them for
each.  The entries are as many as the normal forms that were put in or asked for. -/
theorem imports_by_history (root : Path) (d : Disk) (events : List Event) :
    (∀ path, ((imports (after root d events).disk path).run (after root d events).cache).1
      = (lastSeeded? events path).getD (importsOn root
          ((diskAtFirstAsk? path d events).getD (after root d events).disk) path)) ∧
    (after root d events).cache.hits + (after root d events).cache.misses
      = events.countP (fun e => e.asked?.isSome) ∧
    (after root d events).cache.misses = (missed events).length ∧
    (∀ i path, events[i]? = some (.ask path) →
      (i ∈ missed events ↔
        (after root d (events.take i)).cache.get? path.normalize = none)) ∧
    (∀ i j p q, events[i]? = some (.ask p) → events[j]? = some (.ask q) →
      i ∈ missed events → j ∈ missed events → p.normalSteps = q.normalSteps → i = j) ∧
    (after root d events).cache.entries.length = (known events).toFinset.card := by
  refine ⟨fun path => ?_, hits_add_misses_after root d events, misses_after root d events,
    fun i path hask => ?_, fun i j p q => eq_of_mem_missed,
    (entriesOf_after root d events).length_eq⟩
  · rw [answer_ask, get?_after, root_after, entryAfter?]
    cases lastSeeded? events path with
    | some records => rfl
    | none => cases diskAtFirstAsk? path d events <;> rfl
  · rw [mem_missed hask, get?_after_eq_none_iff]

/-- A history in which the disk and memory disagree: `/a.ts` is asked for, changes, and is asked
for by another way of writing it; then `/b.ts` is put in and asked for.  The first question is
the only one missed, and its answer stays. -/
theorem imports_by_history_changed :
    let old : Disk := ⟨.dir [("a.ts", .file (.text "export * from 'q';"))], [], none, none⟩
    let new : Disk := ⟨.dir [("a.ts", .file (.text "export * from 'r';"))], [], none, none⟩
    let b : ParsedFile := ⟨⟨"/b.ts"⟩, ⟨"b.ts"⟩, [], {}⟩
    let events : List Event := [.ask ⟨"/a.ts"⟩, .change new, .ask ⟨"/c/../a.ts"⟩, .seed [b],
      .ask ⟨"/b.ts"⟩]
    let s := after ⟨"/"⟩ old events
    events[0]? = some (.ask ⟨"/a.ts"⟩) ∧ missed events = [0] ∧
      (after ⟨"/"⟩ old (events.take 0)).cache.get? (⟨"/a.ts"⟩ : Path).normalize = none ∧
      ((imports s.disk ⟨"/a.ts"⟩).run s.cache).1.map ImportRecord.specifier = ["q"] ∧
      s.cache.hits + s.cache.misses = 3 ∧ s.cache.misses = 1 ∧ s.cache.entries.length = 2 := by
  intro old new b events s
  have hmissed : missed events = [0] := by decide +kernel
  obtain ⟨hanswer, hcalls, hmisses, hentry, -, hlength⟩ := imports_by_history ⟨"/"⟩ old events
  refine ⟨rfl, hmissed, (hentry 0 _ rfl).1 (by simp [hmissed]), ?_, hcalls, ?_, ?_⟩
  · rw [hanswer]
    decide +kernel
  · rw [hmisses, hmissed]
    rfl
  · rw [hlength]
    decide +kernel

end ParseCache
end DependencyUse
