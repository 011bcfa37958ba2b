/-
# Normal forms are stable

A normal form is a root or none, a `..` or none, and names:

| of a normal form | holds |
| --- | --- |
| normalised again | nothing changes |
| `.` | never |
| `..` | never after a name, and never where nothing climbs above the root |

From the root a normal form says which place a path names and nothing else.  On the way, a name
that is left again at once and a `.` change nothing, whatever stands before and after them
(`reduce_name_up`), so `d/x/../q`, `d/./q` and `d/q` have one normal form.  What is kept by
normal forms therefore treats a path and its normal form alike.
-/

import DependencyUse.ParseCache
import DependencyUse.Proofs.Path.Place
import DependencyUse.Reexport.Trace

namespace DependencyUse
namespace Path

/-! ## The shape of a normal form -/

/-- **Every normal form** is a root or none, a `..` or none, and names. -/
theorem exists_steps_normalize (p : Path) :
    ∃ front, (front = [] ∨ front = [.root]) ∧ ∃ levels texts,
      p.normalize.steps = front ++ upIfOdd levels ++ nameSteps texts := by
  obtain ⟨plain, hplain, hsteps⟩ := steps_cases p
  have hroot : .root ∉ plain := fun h => hplain .root h
  rw [steps_normalize]
  rcases hsteps with hsteps | hsteps | hsteps <;> rw [hsteps]
  · exact ⟨[], .inl rfl, _, _, reduce_eq (.inl rfl) hroot⟩
  · exact ⟨[.root], .inr rfl, _, _, reduce_eq (.inr rfl) hroot⟩
  · -- a `.` at the start is dropped
    have hdropped : reduce (.here :: plain) = reduce plain := rfl
    exact ⟨[], .inl rfl, _, _, hdropped.trans (reduce_eq (.inl rfl) hroot)⟩

theorem mem_upIfOdd {levels : Nat} {s : Step} (h : s ∈ upIfOdd levels) : s = .up := by
  rw [upIfOdd] at h
  split at h
  · exact List.mem_singleton.1 h
  · exact absurd h List.not_mem_nil

theorem mem_nameSteps {texts : List String} {s : Step} (h : s ∈ nameSteps texts) :
    ∃ text, s = .name text := by
  obtain ⟨text, -, rfl⟩ := List.mem_map.1 h
  exact ⟨text, rfl⟩

theorem here_notMem_normalize (p : Path) : .here ∉ p.normalize.steps := by
  obtain ⟨front, hfront, levels, texts, hsteps⟩ := exists_steps_normalize p
  rw [hsteps, List.mem_append, List.mem_append]
  rintro ((h | h) | h)
  · rcases hfront with rfl | rfl
    · exact absurd h List.not_mem_nil
    · cases List.mem_singleton.1 h
  · cases mem_upIfOdd h
  · obtain ⟨text, htext⟩ := mem_nameSteps h
    cases htext

/-- **After a name there is no `..`.** -/
theorem pairwise_normalize (p : Path) :
    p.normalize.steps.Pairwise fun earlier later => ∀ text, earlier = .name text → later ≠ .up := by
  obtain ⟨front, hfront, levels, texts, hsteps⟩ := exists_steps_normalize p
  have hlead : ∀ s ∈ front ++ upIfOdd levels, ∀ text, s ≠ .name text := by
    intro s hs text
    rcases List.mem_append.1 hs with hs | hs
    · rcases hfront with rfl | rfl
      · exact absurd hs List.not_mem_nil
      · rw [List.mem_singleton.1 hs]
        nofun
    · rw [mem_upIfOdd hs]
      nofun
  have hnames : ∀ s ∈ nameSteps texts, s ≠ .up := by
    intro s hs
    obtain ⟨text, rfl⟩ := mem_nameSteps hs
    nofun
  rw [hsteps, List.pairwise_append]
  refine ⟨?_, ?_, fun a ha b hb _ _ => hnames b hb⟩
  · exact List.pairwise_of_forall_mem_list fun a ha b _ text hname =>
      absurd hname (hlead a ha text)
  · exact List.pairwise_of_forall_mem_list fun a _ b hb _ _ => hnames b hb

/-! ## Normal forms from the root -/

theorem steps_normalize_of_place? {p : Path} (hp : p.isAbsolute = true) {place : List String}
    (h : p.place? = some place) : p.normalize.steps = .root :: nameSteps place := by
  rw [steps_normalize, reduce_of_place? hp h]

/-- **From the root there is no `..`**, if nothing climbs above it. -/
theorem up_notMem_normalize {p : Path} (hp : p.isAbsolute = true) {place : List String}
    (h : p.place? = some place) : .up ∉ p.normalize.steps := by
  rw [steps_normalize_of_place? hp h, List.mem_cons, not_or]
  refine ⟨nofun, fun hup => ?_⟩
  obtain ⟨text, htext⟩ := mem_nameSteps hup
  cases htext

/-- **From the root, normal forms are equal exactly if the places are.** -/
theorem normalize_eq_iff_place? {p q : Path} (hp : p.isAbsolute = true) (hq : q.isAbsolute = true)
    {place place' : List String} (h : p.place? = some place) (h' : q.place? = some place') :
    p.normalize = q.normalize ↔ place = place' := by
  rw [normalize_eq_iff, reduce_of_place? hp h, reduce_of_place? hq h', List.cons_inj_right,
    nameSteps_inj]

/-! ## Detours -/

/-- A name that is left again is taken back. -/
theorem advance_name_up (done : List Step) (text : String) :
    advance (advance done (.name text)) .up = done :=
  (advance_up_names done (List.cons_ne_nil text [])).trans (List.append_nil done)

/-- **A detour changes nothing**, whatever stands before and after it. -/
theorem reduce_name_up (before after : List Step) (text : String) :
    reduce (before ++ [.name text] ++ [.up] ++ after) = reduce (before ++ after) := by
  simp only [reduce, List.foldl_append, List.foldl_cons, List.foldl_nil, advance_name_up]

/-- One path written after another, with a slash between them. -/
def slash (d q : Path) : Path :=
  ⟨d.text ++ "/" ++ q.text⟩

theorem steps_slash {d q : Path} (hd : d.text.toList ≠ []) (hq : q.isAbsolute = false) :
    (d.slash q).steps = d.steps ++ q.steps.filter (· ≠ .here) := by
  have htext : (d.slash q).text.toList = d.text.toList ++ '/' :: q.text.toList := by
    simp [slash]
  rw [steps, spans_append_slash hd htext, List.map_append, step_spansFrom_filter,
    ← spans_of_isAbsolute_eq_false hq]
  rfl

theorem toList_slash_ne_nil (d q : Path) : (d.slash q).text.toList ≠ [] := by
  simp [slash]

/-- A plain name is read as one step. -/
theorem steps_name {text : String} (h : (Step.name text).IsPlain) :
    (⟨text⟩ : Path).steps = [.name text] := by
  rw [steps, spans_of_isAbsolute_eq_false (isAbsolute_of_isPlain h)]
  exact congrArg (List.map Span.step) (spansFrom_text h 0)

/-- **`d/x/../q` has the normal form of `d/q`.** -/
theorem normalize_slash_name_up {d q : Path} (hd : d.isAbsolute = true) (hq : q.isAbsolute = false)
    {text : String} (htext : (Step.name text).IsPlain) :
    (((d.slash ⟨text⟩).slash ⟨".."⟩).slash q).normalize = (d.slash q).normalize := by
  have hup : (⟨".."⟩ : Path).steps = [.up] := by decide
  rw [normalize_eq_iff, steps_slash (toList_slash_ne_nil _ _) hq,
    steps_slash (toList_slash_ne_nil _ _) (by decide), hup,
    steps_slash (text_ne_nil_of_isAbsolute hd) (isAbsolute_of_isPlain htext), steps_name htext,
    steps_slash (text_ne_nil_of_isAbsolute hd) hq]
  exact reduce_name_up d.steps _ text

/-- **`d/./q` has the normal form of `d/q`.** -/
theorem normalize_slash_here {d q : Path} (hd : d.isAbsolute = true) (hq : q.isAbsolute = false) :
    ((d.slash ⟨"."⟩).slash q).normalize = (d.slash q).normalize := by
  have hhere : (⟨"."⟩ : Path).steps.filter (· ≠ .here) = [] := by decide
  rw [normalize_eq_iff, steps_slash (toList_slash_ne_nil _ _) hq,
    steps_slash (text_ne_nil_of_isAbsolute hd) (by decide), hhere, List.append_nil,
    steps_slash (text_ne_nil_of_isAbsolute hd) hq]

/-- Joined or written after it, a path is the same. -/
theorem normalize_join_eq_slash {d q : Path} (hd : d.isAbsolute = true)
    (hq : q.isAbsolute = false) : (d.join q).normalize = (d.slash q).normalize := by
  rw [normalize_eq_iff, steps_join (text_ne_nil_of_isAbsolute hd) hq,
    steps_slash (text_ne_nil_of_isAbsolute hd) hq]

/-! ## What is kept by normal forms -/

theorem imports_normalize (disk : Disk) (p : Path) :
    ParseCache.imports disk p.normalize = ParseCache.imports disk p := by
  rw [ParseCache.imports, ParseCache.imports, normalize_normalize]

theorem seedOne_normalize (c : ParseCache) (p : Path) (records : List ImportRecord) :
    c.seedOne p.normalize records = c.seedOne p records := by
  rw [ParseCache.seedOne, ParseCache.seedOne, normalize_normalize]

theorem search_normalize {m : Type → Type} [Monad m] (view : View m) (maxDepth room : Nat)
    (flows : Flows) (via : Location) (p : Path) (s : Trace.State) :
    Trace.search view maxDepth room flows via p.normalize s
      = Trace.search view maxDepth room flows via p s := by
  unfold Trace.search
  rw [normalize_normalize]

/-- **Normal forms are stable.**  For every path, its normal form is its own normal form, has no `.`
in it and no `..` after a name.  From the root, of paths that do not climb above it, it has no `..`
at all, and two of them are equal exactly if the paths name the same place.  For every absolute
directory `d`, name `x` and relative path `q`, the paths `d/x/../q` and `d/./q` have the normal form
of `d/q`, which is also that of `q` joined to `d`.  Paths with one normal form are one file to the
remembered imports and to the search with its cycle test, and what a specifier points to is a
normal form. -/
theorem normal_forms_stable :
    (∀ p : Path, p.normalize.normalize = p.normalize ∧ .here ∉ p.normalize.steps ∧
      p.normalize.steps.Pairwise fun earlier later =>
        ∀ text, earlier = .name text → later ≠ .up) ∧
    (∀ (p q : Path) (place place' : List String), p.isAbsolute = true → q.isAbsolute = true →
      p.place? = some place → q.place? = some place' →
        .up ∉ p.normalize.steps ∧ (p.normalize = q.normalize ↔ place = place')) ∧
    (∀ (d q : Path) (x : String), d.isAbsolute = true → q.isAbsolute = false →
      (Step.name x).IsPlain →
        (((d.slash ⟨x⟩).slash ⟨".."⟩).slash q).normalize = (d.slash q).normalize ∧
        ((d.slash ⟨"."⟩).slash q).normalize = (d.slash q).normalize ∧
        (d.join q).normalize = (d.slash q).normalize) ∧
    (∀ p q : Path, p.normalize = q.normalize →
      (∀ disk, ParseCache.imports disk p = ParseCache.imports disk q) ∧
      (∀ (cache : ParseCache) records, cache.seedOne p records = cache.seedOne q records) ∧
      ∀ (m : Type → Type) [Monad m] (view : View m) maxDepth room flows via state,
        Trace.search view maxDepth room flows via p state
          = Trace.search view maxDepth room flows via q state) ∧
    ∀ (source : Path) (specifier : String),
      (source.relativeTarget specifier).normalize = source.relativeTarget specifier := by
  refine ⟨fun p => ⟨normalize_normalize p, here_notMem_normalize p, pairwise_normalize p⟩,
    fun p q place place' hp hq h h' => ?_, fun d q x hd hq hx => ?_, fun p q h => ?_,
    fun source specifier => normalize_normalize _⟩
  · exact ⟨up_notMem_normalize hp h, normalize_eq_iff_place? hp hq h h'⟩
  · exact ⟨normalize_slash_name_up hd hq hx, normalize_slash_here hd hq,
      normalize_join_eq_slash hd hq⟩
  · refine ⟨fun disk => ?_, fun cache records => ?_, ?_⟩
    · rw [← imports_normalize disk p, h, imports_normalize]
    · rw [← seedOne_normalize cache p, h, seedOne_normalize]
    · intro m _ view maxDepth room flows via state
      rw [← search_normalize view maxDepth room flows via p, h, search_normalize]

/-- `/a/b/.././c` and `/a//c/` name the same place, and `/a/b/../c` is a detour. -/
theorem normal_forms_stable_detour :
    let p : Path := ⟨"/a/b/.././c"⟩
    let q : Path := ⟨"/a//c/"⟩
    let d : Path := ⟨"/a"⟩
    let r : Path := ⟨"./c"⟩
    p.isAbsolute = true ∧ q.isAbsolute = true ∧ p.place? = some ["a", "c"] ∧
      q.place? = some ["a", "c"] ∧ p.normalize = q.normalize ∧
      d.isAbsolute = true ∧ r.isAbsolute = false ∧ (Step.name "b").IsPlain ∧
      (((d.slash ⟨"b"⟩).slash ⟨".."⟩).slash r).normalize = ⟨"/a/c"⟩ ∧
      ∀ disk, ParseCache.imports disk p = ParseCache.imports disk q := by
  intro p q d r
  have hp : p.isAbsolute = true := by decide
  have hq : q.isAbsolute = true := by decide
  have hplace : p.place? = some ["a", "c"] := by decide
  have hplace' : q.place? = some ["a", "c"] := by decide
  have hd : d.isAbsolute = true := by decide
  have hr : r.isAbsolute = false := by decide
  have hname : (Step.name "b").IsPlain := by unfold Step.IsPlain; decide
  obtain ⟨-, hsame, hdetour, hkept, -⟩ := normal_forms_stable
  have hnormal : p.normalize = q.normalize := (hsame p q _ _ hp hq hplace hplace').2.2 rfl
  refine ⟨hp, hq, hplace, hplace', hnormal, hd, hr, hname, ?_, (hkept p q hnormal).1⟩
  rw [(hdetour d r "b" hd hr hname).1]
  decide

end Path
end DependencyUse
