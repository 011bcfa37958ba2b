/-
# Tidy paths

Several texts have the same steps: `a/b`, `a//b`, `a/./b` and `a/b/`.  A path is tidy if
its text is the one that `ofSteps` writes, so tidy paths with the same steps are equal.
What the disk says of a path hangs on its text, and what is remembered of it on its
steps; for tidy paths there is no difference.

| path | tidy |
| --- | --- |
| `ofSteps` of plain steps, with a root before them or not | yes |
| a normal form | yes |
| what a normal form may mean as a file | yes |

Everything rests on what `steps` finds in a text that ends in a slash and a piece
(`spansFrom_append_slash`), and in a piece without a slash (`spansFrom_of_no_slash`).
-/

import DependencyUse.Resolve
import Mathlib.Data.List.Basic

namespace DependencyUse
namespace Path

/-- A step that may stand anywhere after the root: `..`, or a name that is written as one
piece and reads as a name. -/
def Step.IsPlain : Step → Prop
  | .root | .here => False
  | .up => True
  | .name text => '/' ∉ text.toList ∧ text.toList ≠ [] ∧ text.toList ≠ ['.'] ∧
      text.toList ≠ ['.', '.']

theorem Step.IsPlain.no_slash {s : Step} (h : s.IsPlain) : '/' ∉ s.text.toList := by
  cases s with
  | root | here => exact h.elim
  | up => decide
  | name text => exact h.1

theorem Step.IsPlain.text_ne_nil {s : Step} (h : s.IsPlain) : s.text.toList ≠ [] := by
  cases s with
  | root | here => exact h.elim
  | up => decide
  | name text => exact h.2.1

/-- The piece that a plain step is written as stands for the step. -/
theorem pieceSpan_text {s : Step} (h : s.IsPlain) (start : Nat) :
    pieceSpan start s.text.toList = some ⟨s, start, start + s.text.toList.length⟩ := by
  cases s with
  | root | here => exact h.elim
  | up => rfl
  | name text =>
    obtain ⟨-, hempty, hdot, hdots⟩ := h
    show pieceSpan start text.toList = _
    rw [pieceSpan, if_neg hempty, if_neg hdot, if_neg hdots, String.ofList_toList]
    rfl

/-- A piece without a slash stands for a plain step, for `.` at the start, or for nothing. -/
theorem isPlain_of_pieceSpan {start : Nat} {piece : List Char} {x : Span} (hslash : '/' ∉ piece)
    (h : pieceSpan start piece = some x) : x.step.IsPlain ∨ start = 0 ∧ x.step = .here := by
  unfold pieceSpan at h
  split at h
  · cases h
  · rename_i hempty
    split at h
    · split at h
      · rename_i hstart
        cases h
        exact .inr ⟨hstart, rfl⟩
      · cases h
    · rename_i hdot
      split at h
      · cases h
        exact .inl trivial
      · rename_i hdots
        cases h
        refine .inl ?_
        simp only [Step.IsPlain, String.toList_ofList]
        exact ⟨hslash, hempty, hdot, hdots⟩

theorem spansFrom_of_no_slash {cs : List Char} (h : '/' ∉ cs) (start : Nat) (piece : List Char) :
    spansFrom start piece cs = (pieceSpan start (piece.reverse ++ cs)).toList := by
  induction cs generalizing piece with
  | nil => rw [spansFrom, List.append_nil]
  | cons c cs ih =>
    rw [List.mem_cons, not_or] at h
    rw [spansFrom, if_neg (Ne.symm h.1), ih h.2, List.reverse_cons, List.append_assoc]
    rfl

/-- What a plain step is written as is read as that step. -/
theorem spansFrom_text {s : Step} (h : s.IsPlain) (start : Nat) :
    spansFrom start [] s.text.toList = [⟨s, start, start + s.text.toList.length⟩] := by
  rw [spansFrom_of_no_slash h.no_slash]
  exact congrArg Option.toList (pieceSpan_text h start)

/-- **What stands after a slash is read on its own.** -/
theorem spansFrom_append_slash (start : Nat) (piece cs ds : List Char) :
    spansFrom start piece (cs ++ '/' :: ds)
      = spansFrom start piece cs
          ++ spansFrom (start + piece.length + cs.length + 1) [] ds := by
  induction cs generalizing start piece with
  | nil => rfl
  | cons c cs ih =>
    rw [List.cons_append, spansFrom, spansFrom]
    split
    · rw [ih, List.append_assoc]
      congr 3
      simp only [List.length_nil, List.length_cons]
      omega
    · rw [ih]
      congr 2
      simp only [List.length_cons]
      omega

/-- Every step is read from a piece without a slash. -/
theorem exists_pieceSpan_of_mem_spansFrom {start : Nat} {piece cs : List Char} {x : Span}
    (hpiece : '/' ∉ piece) (hx : x ∈ spansFrom start piece cs) :
    ∃ from_ found, start ≤ from_ ∧ '/' ∉ found ∧ pieceSpan from_ found = some x := by
  have hread : ∀ {start : Nat} {piece : List Char}, '/' ∉ piece →
      x ∈ (pieceSpan start piece.reverse).toList →
        ∃ from_ found, start ≤ from_ ∧ '/' ∉ found ∧ pieceSpan from_ found = some x :=
    fun {start piece} hpiece hx =>
      ⟨start, piece.reverse, Nat.le_refl _, by simpa using hpiece, Option.mem_toList.1 hx⟩
  induction cs generalizing start piece with
  | nil => exact hread hpiece hx
  | cons c cs ih =>
    rw [spansFrom] at hx
    split at hx
    · rcases List.mem_append.1 hx with hx | hx
      · exact hread hpiece hx
      · obtain ⟨from_, found, hfrom, hfound⟩ := ih List.not_mem_nil hx
        exact ⟨from_, found, by omega, hfound⟩
    · rename_i hc
      exact ih (by simpa [hpiece] using Ne.symm hc) hx

/-- After the start there are plain steps only. -/
theorem isPlain_of_mem_spansFrom {start : Nat} {cs : List Char} {x : Span} (hstart : 0 < start)
    (hx : x ∈ spansFrom start [] cs) : x.step.IsPlain := by
  obtain ⟨from_, found, hfrom, hslash, hspan⟩ :=
    exists_pieceSpan_of_mem_spansFrom List.not_mem_nil hx
  exact (isPlain_of_pieceSpan hslash hspan).resolve_right fun h => by omega

/-- The first piece of a path without a root: a `.`, or plain like the others. -/
theorem first_piece_cases {piece : List Char} (hslash : '/' ∉ piece) {rest : List Step}
    (hrest : ∀ s ∈ rest, s.IsPlain) :
    ∃ plain : List Step, (∀ s ∈ plain, s.IsPlain) ∧
      ((pieceSpan 0 piece).toList.map Span.step ++ rest = plain ∨
        (pieceSpan 0 piece).toList.map Span.step ++ rest = .here :: plain) := by
  cases hspan : pieceSpan 0 piece with
  | none => exact ⟨rest, hrest, .inl rfl⟩
  | some x =>
    rcases isPlain_of_pieceSpan hslash hspan with hx | ⟨-, hx⟩
    · exact ⟨x.step :: rest, List.forall_mem_cons.2 ⟨hx, hrest⟩, .inl rfl⟩
    · exact ⟨rest, hrest, .inr (by rw [← hx]; rfl)⟩

/-- **The steps of a path** are plain, but for a root or a `.` before them. -/
theorem steps_cases (p : Path) :
    ∃ plain : List Step, (∀ s ∈ plain, s.IsPlain) ∧
      (p.steps = plain ∨ p.steps = .root :: plain ∨ p.steps = .here :: plain) := by
  have hplain : ∀ (start : Nat) (cs : List Char),
      ∀ s ∈ (spansFrom (start + 1) [] cs).map Span.step, s.IsPlain := by
    intro start cs s hs
    obtain ⟨x, hx, rfl⟩ := List.mem_map.1 hs
    exact isPlain_of_mem_spansFrom start.succ_pos hx
  unfold steps spans
  split
  · exact ⟨_, hplain 0 _, .inr (.inl rfl)⟩
  · by_cases hslash : '/' ∈ p.text.toList
    · obtain ⟨before, after, htext, hbefore⟩ := List.eq_append_cons_of_mem hslash
      rw [htext, spansFrom_append_slash, spansFrom_of_no_slash hbefore, List.map_append]
      obtain ⟨plain, h, hsteps | hsteps⟩ := first_piece_cases hbefore (hplain _ after)
      · exact ⟨plain, h, .inl hsteps⟩
      · exact ⟨plain, h, .inr (.inr hsteps)⟩
    · obtain ⟨plain, h, hsteps⟩ := first_piece_cases hslash (List.forall_mem_nil _)
      rw [List.append_nil] at hsteps
      rw [spansFrom_of_no_slash hslash]
      exact ⟨plain, h, hsteps.imp_right .inr⟩

/-- Plain steps, with a root before them or not. -/
def IsWritten : List Step → Prop
  | .root :: steps => ∀ s ∈ steps, s.IsPlain
  | steps => ∀ s ∈ steps, s.IsPlain

theorem IsWritten.of_plain {steps : List Step} (h : ∀ s ∈ steps, s.IsPlain) : IsWritten steps := by
  cases steps with
  | nil => exact h
  | cons s steps =>
    cases s with
    | root => exact ((h _ (List.mem_cons_self ..)).elim)
    | _ => exact h

theorem IsWritten.concat {steps : List Step} (h : IsWritten steps) {s : Step} (hs : s.IsPlain) :
    IsWritten (steps ++ [s]) := by
  have hmore : ∀ {plain : List Step}, (∀ s ∈ plain, s.IsPlain) → ∀ t ∈ plain ++ [s], t.IsPlain :=
    fun hplain => List.forall_mem_append.2 ⟨hplain, by simpa using hs⟩
  cases steps with
  | nil => exact .of_plain (hmore h)
  | cons first steps =>
    cases first with
    | root => exact hmore h
    | _ => exact .of_plain (hmore h)

theorem IsWritten.dropLast {steps : List Step} (h : IsWritten steps) :
    IsWritten steps.dropLast := by
  cases steps with
  | nil => exact h
  | cons first steps =>
    cases first with
    | root =>
      cases steps with
      | nil => exact .of_plain (List.forall_mem_nil _)
      | cons next steps => exact fun s hs => h s ((List.dropLast_sublist _).subset hs)
    | _ => exact .of_plain fun s hs => h s ((List.dropLast_sublist _).subset hs)

/-- **One more step** keeps a list written, if the step is plain or `.`. -/
theorem IsWritten.advance {done : List Step} (h : IsWritten done) {s : Step}
    (hs : s.IsPlain ∨ s = .here) : IsWritten (advance done s) := by
  cases s with
  | root => exact absurd hs (by rintro (h | h) <;> cases h)
  | here => exact h
  | up =>
    show IsWritten (if done = [] ∨ done = [.root] then done ++ [.up] else done.dropLast)
    split
    · exact h.concat trivial
    · exact h.dropLast
  | name text => exact h.concat (hs.resolve_right nofun)

theorem IsWritten.foldl_advance {steps : List Step} (hsteps : ∀ s ∈ steps, s.IsPlain)
    {done : List Step} (h : IsWritten done) : IsWritten (steps.foldl Path.advance done) := by
  induction steps generalizing done with
  | nil => exact h
  | cons s steps ih =>
    rw [List.forall_mem_cons] at hsteps
    exact ih hsteps.2 (h.advance (.inl hsteps.1))

/-- **What is left of the steps of a path is written.** -/
theorem isWritten_reduce (p : Path) : IsWritten (reduce p.steps) := by
  have hnil : IsWritten [] := .of_plain (List.forall_mem_nil _)
  have hroot : IsWritten [.root] := List.forall_mem_nil _
  obtain ⟨plain, hplain, h | h | h⟩ := steps_cases p <;> rw [h]
  · exact .foldl_advance hplain hnil
  · exact .foldl_advance hplain hroot
  · exact .foldl_advance hplain hnil

/-- Steps with a slash between any two. -/
def joined (steps : List Step) : List Char :=
  ['/'].intercalate (steps.map fun s => s.text.toList)

theorem joined_singleton (s : Step) : joined [s] = s.text.toList := by
  simp [joined]

theorem joined_cons_cons (s next : Step) (steps : List Step) :
    joined (s :: next :: steps) = s.text.toList ++ '/' :: joined (next :: steps) := by
  simp [joined, List.intercalate_cons_cons]

theorem toList_ofSteps_root (steps : List Step) :
    (ofSteps (.root :: steps)).text.toList = '/' :: joined steps := by
  show ("/" ++ "/".intercalate (steps.map Step.text)).toList = _
  rw [String.toList_append, String.toList_intercalate, List.map_map]
  rfl

theorem toList_ofSteps {steps : List Step} (h : ∀ s ∈ steps, s.IsPlain) :
    (ofSteps steps).text.toList = joined steps := by
  have hne : ∀ rest, steps ≠ .root :: rest := by
    rintro rest rfl
    exact h _ (List.mem_cons_self ..)
  rw [ofSteps.eq_2 _ hne, String.toList_intercalate, List.map_map]
  rfl

/-- The steps that are read from plain steps with slashes between them. -/
theorem steps_joined {steps : List Step} (h : ∀ s ∈ steps, s.IsPlain) (start : Nat) :
    (spansFrom start [] (joined steps)).map Span.step = steps := by
  induction steps generalizing start with
  | nil => rfl
  | cons s steps ih =>
    rw [List.forall_mem_cons] at h
    cases steps with
    | nil => rw [joined_singleton, spansFrom_text h.1, List.map_singleton]
    | cons next steps =>
      rw [joined_cons_cons, spansFrom_append_slash, List.map_append, spansFrom_text h.1, ih h.2]
      rfl

/-- Plain steps do not begin with a slash. -/
theorem joined_ne_slash {steps : List Step} (h : ∀ s ∈ steps, s.IsPlain) (cs : List Char) :
    joined steps ≠ '/' :: cs := by
  cases steps with
  | nil => nofun
  | cons s steps =>
    rw [List.forall_mem_cons] at h
    intro heq
    have hhead : s.text.toList.head? = some '/' := by
      obtain ⟨c, text, htext⟩ := List.exists_cons_of_ne_nil h.1.text_ne_nil
      have hfirst := congrArg List.head? heq
      cases steps with
      | nil => simpa [joined_singleton, htext] using hfirst
      | cons next steps => simpa [joined_cons_cons, htext] using hfirst
    exact h.1.no_slash (List.mem_of_head? hhead)

/-- **Writing steps and reading them gives them back.** -/
theorem steps_ofSteps {steps : List Step} (h : IsWritten steps) :
    (ofSteps steps).steps = steps := by
  have hplain : ∀ {steps : List Step}, (∀ s ∈ steps, s.IsPlain) →
      (ofSteps steps).steps = steps := by
    intro steps h
    rw [Path.steps, spans, toList_ofSteps h]
    split
    · rename_i cs heq
      exact absurd heq (joined_ne_slash h cs)
    · exact steps_joined h 0
  cases steps with
  | nil => exact hplain h
  | cons first steps =>
    cases first with
    | root =>
      rw [Path.steps, spans, toList_ofSteps_root]
      show .root :: (spansFrom 1 [] (joined steps)).map Span.step = _
      rw [steps_joined h]
    | _ => exact hplain h

/-- The text is the one that its steps are written as. -/
def IsTidy (p : Path) : Prop :=
  ofSteps p.steps = p

/-- **Tidy paths with the same steps are equal.** -/
theorem IsTidy.eq_of_steps_eq {p q : Path} (hp : p.IsTidy) (hq : q.IsTidy)
    (h : p.steps = q.steps) : p = q := by
  rw [← hp, h, hq]

/-- Lists of tidy paths with the same steps are equal. -/
theorem eq_of_map_steps_eq {ps qs : List Path} (hps : ∀ p ∈ ps, p.IsTidy) (hqs : ∀ q ∈ qs, q.IsTidy)
    (h : ps.map steps = qs.map steps) : ps = qs := by
  have hback : ∀ {ps : List Path}, (∀ p ∈ ps, p.IsTidy) → (ps.map steps).map ofSteps = ps := by
    intro ps hps
    rw [List.map_map]
    exact (List.map_congr_left hps).trans (List.map_id ps)
  rw [← hback hps, h, hback hqs]

theorem isTidy_ofSteps {steps : List Step} (h : IsWritten steps) : (ofSteps steps).IsTidy := by
  rw [IsTidy, steps_ofSteps h]

theorem steps_normalize (p : Path) : p.normalize.steps = reduce p.steps :=
  steps_ofSteps (isWritten_reduce p)

theorem isTidy_normalize (p : Path) : p.normalize.IsTidy :=
  isTidy_ofSteps (isWritten_reduce p)

/-- Neither the steps nor any beginning of them are changed by taking back. -/
def IsSettled (steps : List Step) : Prop :=
  ∀ front, front <+: steps → reduce front = front

theorem reduce_concat (steps : List Step) (s : Step) :
    reduce (steps ++ [s]) = advance (reduce steps) s :=
  List.foldl_concat ..

theorem IsSettled.dropLast {steps : List Step} (h : IsSettled steps) : IsSettled steps.dropLast :=
  fun front hfront => h front (hfront.trans (List.dropLast_prefix steps))

/-- A step that stays keeps steps settled. -/
theorem IsSettled.concat {steps : List Step} (h : IsSettled steps) {s : Step}
    (hstays : advance steps s = steps ++ [s]) : IsSettled (steps ++ [s]) := by
  intro front hfront
  rcases List.prefix_concat_iff.1 hfront with rfl | hfront
  · rw [reduce_concat, h steps (List.prefix_refl _), hstays]
  · exact h front hfront

theorem IsSettled.advance {done : List Step} (h : IsSettled done) (s : Step) :
    IsSettled (advance done s) := by
  cases s with
  | here => exact h
  | up =>
    by_cases hfirst : done = [] ∨ done = [.root]
    · have hstays : Path.advance done .up = done ++ [.up] := if_pos hfirst
      rw [hstays]
      exact h.concat hstays
    · have hback : Path.advance done .up = done.dropLast := if_neg hfirst
      rw [hback]
      exact h.dropLast
  | root | name text => exact h.concat rfl

/-- **What is left after taking back is settled.** -/
theorem isSettled_reduce (steps : List Step) : IsSettled (reduce steps) := by
  have hrun : ∀ done, IsSettled done → IsSettled (steps.foldl Path.advance done) := by
    induction steps with
    | nil => exact fun done h => h
    | cons s steps ih => exact fun done h => ih _ (h.advance s)
  refine hrun [] fun front hfront => ?_
  rw [List.prefix_nil.1 hfront]
  rfl

/-- **A normal form is its own normal form.** -/
theorem normalize_normalize (p : Path) : p.normalize.normalize = p.normalize := by
  have hreduce := isSettled_reduce p.steps _ (List.prefix_refl _)
  rw [normalize, steps_normalize, hreduce]
  rfl

/-- What stands before the next step: the text, with a slash after it if there is a step
that is not the root. -/
def lead (steps : List Step) : List Char :=
  if steps = [] ∨ steps = [.root] then (ofSteps steps).text.toList
  else (ofSteps steps).text.toList ++ ['/']

theorem joined_concat {steps : List Step} (hne : steps ≠ []) (s : Step) :
    joined (steps ++ [s]) = joined steps ++ '/' :: s.text.toList := by
  induction steps with
  | nil => exact absurd rfl hne
  | cons first steps ih =>
    cases steps with
    | nil => rw [List.singleton_append, joined_cons_cons, joined_singleton, joined_singleton]
    | cons next steps =>
      have htail := ih (by simp)
      rw [List.cons_append] at htail
      rw [List.cons_append, List.cons_append, joined_cons_cons, joined_cons_cons, htail,
        List.append_assoc]
      rfl

/-- **The text of one more step.** -/
theorem toList_ofSteps_concat {steps : List Step} (h : IsWritten steps) {s : Step}
    (hs : s.IsPlain) : (ofSteps (steps ++ [s])).text.toList = lead steps ++ s.text.toList := by
  have hplain : ∀ {steps : List Step}, steps ≠ [] → (∀ s ∈ steps, s.IsPlain) →
      (ofSteps (steps ++ [s])).text.toList = lead steps ++ s.text.toList := by
    intro steps hne h
    have hroot : steps ≠ [.root] := by
      rintro rfl
      exact h .root (List.mem_singleton.2 rfl)
    rw [lead, if_neg (by simp [hne, hroot]), toList_ofSteps h,
      toList_ofSteps (List.forall_mem_append.2 ⟨h, by simpa using hs⟩), joined_concat hne,
      List.append_assoc]
    rfl
  cases steps with
  | nil =>
    have hone : ∀ t ∈ [s], t.IsPlain := by simpa using hs
    have hlead : lead [] = [] := rfl
    rw [List.nil_append, toList_ofSteps hone, hlead, joined_singleton]
    rfl
  | cons first steps =>
    cases first with
    | root =>
      rw [List.cons_append, toList_ofSteps_root]
      by_cases hne : steps = []
      · subst hne
        simp [lead, toList_ofSteps_root, joined]
      · rw [lead, if_neg (by simp [hne]), toList_ofSteps_root, joined_concat hne]
        simp
    | _ => exact hplain (by simp) h

theorem lead_cases {steps : List Step} (h : IsWritten steps) :
    lead steps = [] ∨ ∃ front, lead steps = front ++ ['/'] := by
  rw [lead]
  split
  · rename_i hsteps
    rcases hsteps with rfl | rfl
    · exact .inl rfl
    · exact .inr ⟨[], toList_ofSteps_root []⟩
  · exact .inr ⟨_, rfl⟩

/-- **The last step of a text** that ends in a plain one. -/
theorem getLast?_spans {p : Path} {front : List Char} {s : Step} (hs : s.IsPlain)
    (hfront : front = [] ∨ ∃ before, front = before ++ ['/'])
    (htext : p.text.toList = front ++ s.text.toList) :
    p.spans.getLast? = some ⟨s, front.length, front.length + s.text.toList.length⟩ := by
  rw [spans, htext]
  rcases hfront with rfl | ⟨before, rfl⟩
  · rw [List.nil_append]
    split
    · rename_i cs heq
      exact absurd (heq ▸ List.mem_cons_self ..) hs.no_slash
    · rw [spansFrom_text hs]
      rfl
  · rw [List.append_assoc, List.singleton_append]
    cases before with
    | nil => simp [spansFrom_text hs]
    | cons c before =>
      rw [List.cons_append]
      split
      · rename_i cs heq
        cases heq
        have hlength : 1 + ([] : List Char).length + before.length + 1
            = ('/' :: before ++ ['/']).length := by
          simp only [List.length_append, List.length_cons, List.length_nil]
          omega
        rw [spansFrom_append_slash, spansFrom_text hs, ← List.cons_append, List.getLast?_concat,
          hlength]
      · rename_i cs _
        rw [← List.cons_append, spansFrom_append_slash, spansFrom_text hs, List.getLast?_concat]
        simp

/-- A name with an ending of two characters or more is plain. -/
theorem isPlain_ending {stem ending : List Char} (hstem : '/' ∉ stem) (hslash : '/' ∉ ending)
    (hlength : 2 ≤ ending.length) :
    (Step.name (String.ofList (stem ++ '.' :: ending))).IsPlain := by
  have hlong : 3 ≤ (stem ++ '.' :: ending).length := by
    simp only [List.length_append, List.length_cons]
    omega
  simp only [Step.IsPlain, String.toList_ofList]
  refine ⟨by simp [hstem, hslash], ?_, ?_, ?_⟩ <;>
    · intro h
      rw [h] at hlong
      simp at hlong

/-- A path whose text is that of one more step is tidy. -/
theorem isTidy_of_text {p : Path} {steps : List Step} (h : IsWritten steps) {s : Step}
    (hs : s.IsPlain) (htext : p.text.toList = lead steps ++ s.text.toList) : p.IsTidy := by
  have hp : p = ofSteps (steps ++ [s]) := by
    rw [← toList_ofSteps_concat h hs, String.toList_inj] at htext
    cases p
    exact congrArg Path.mk htext
  rw [hp]
  exact isTidy_ofSteps (h.concat hs)

/-- Written steps end in a plain one, or there is none but the root. -/
theorem IsWritten.cases {steps : List Step} (h : IsWritten steps) :
    (steps = [] ∨ steps = [.root]) ∨
      ∃ before s, steps = before ++ [s] ∧ IsWritten before ∧ s.IsPlain := by
  rcases List.eq_nil_or_concat steps with rfl | ⟨before, s, hsteps⟩
  · exact .inl (.inl rfl)
  · rw [List.concat_eq_append] at hsteps
    subst hsteps
    have hbefore : IsWritten before := by simpa using h.dropLast
    cases before with
    | nil =>
      cases s with
      | root => exact .inl (.inr rfl)
      | _ => exact .inr ⟨[], _, rfl, hbefore, h _ (List.mem_singleton.2 rfl)⟩
    | cons first before =>
      refine .inr ⟨first :: before, s, rfl, hbefore, ?_⟩
      cases first <;> exact h s (by simp)

/-- An ending is written to the last name, or is a name of its own. -/
theorem isTidy_append_ending {steps : List Step} (h : IsWritten steps) {ending : String}
    (hslash : '/' ∉ ending.toList) (hlength : 2 ≤ ending.toList.length) :
    (⟨(ofSteps steps).text ++ "." ++ ending⟩ : Path).IsTidy := by
  have htext : ((ofSteps steps).text ++ "." ++ ending).toList
      = (ofSteps steps).text.toList ++ '.' :: ending.toList := by simp
  rcases h.cases with hsteps | ⟨before, s, rfl, hbefore, hs⟩
  · refine isTidy_of_text h (isPlain_ending List.not_mem_nil hslash hlength) ?_
    rw [htext, lead, if_pos hsteps, Step.text, String.toList_ofList]
    rfl
  · refine isTidy_of_text hbefore (isPlain_ending hs.no_slash hslash hlength) ?_
    rw [htext, toList_ofSteps_concat hbefore hs, Step.text, String.toList_ofList,
      List.append_assoc]

/-- A plain name is no absolute path. -/
theorem isAbsolute_of_isPlain {name : String} (h : (Step.name name).IsPlain) :
    (⟨name⟩ : Path).isAbsolute = false := by
  rw [isAbsolute, beq_eq_false_iff_ne]
  exact fun hhead => h.no_slash (List.mem_of_head? hhead)

/-- A name joined to written steps is one more step. -/
theorem toList_join {steps : List Step} (h : IsWritten steps) {name : String}
    (hname : (Step.name name).IsPlain) :
    ((ofSteps steps).join ⟨name⟩).text.toList = lead steps ++ name.toList := by
  rw [join, if_neg (by simp [isAbsolute_of_isPlain hname])]
  rcases h.cases with hsteps | ⟨before, s, rfl, hbefore, hs⟩
  · have hend : ((ofSteps steps).text.isEmpty
        || (ofSteps steps).text.toList.getLast? == some '/') = true := by
      rcases hsteps with rfl | rfl <;> decide
    rw [if_pos hend, lead, if_pos hsteps, String.toList_append]
  · have hlast : (ofSteps (before ++ [s])).text.toList.getLast? ≠ some '/' := by
      rw [toList_ofSteps_concat hbefore hs, List.getLast?_append_of_ne_nil _ hs.text_ne_nil]
      exact fun hslash => hs.no_slash (List.mem_of_getLast? hslash)
    have hempty : (ofSteps (before ++ [s])).text.isEmpty = false := by
      rw [String.isEmpty_eq_false_iff, ne_eq, ← String.toList_inj,
        toList_ofSteps_concat hbefore hs]
      simp [hs.text_ne_nil]
    have hlead : ¬ (before ++ [s] = [] ∨ before ++ [s] = [.root]) := by
      rintro (hnil | hroot)
      · simp at hnil
      · have hlast : s = .root := by simpa using congrArg List.getLast? hroot
        subst hlast
        exact hs
    rw [if_neg (by simp [hlast, hempty]), lead, if_neg hlead]
    simp

/-- Another extension is another last name. -/
theorem isTidy_withExtension {steps : List Step} (h : IsWritten steps) {ending : String}
    (hslash : '/' ∉ ending.toList) (hlength : 2 ≤ ending.toList.length) :
    ((ofSteps steps).withExtension ending).IsTidy := by
  unfold withExtension
  split
  · rename_i text start stop hlast
    rcases h.cases with hsteps | ⟨before, s, rfl, hbefore, hs⟩
    · rcases hsteps with rfl | rfl <;> cases hlast
    · have htext := toList_ofSteps_concat hbefore hs
      rw [getLast?_spans hs (lead_cases hbefore) htext] at hlast
      cases hlast
      have hstem : '/' ∉ (splitName text.toList).1 := by
        unfold splitName
        dsimp only
        split
        · exact fun hmem => hs.no_slash (List.mem_of_mem_take hmem)
        · exact hs.no_slash
      refine isTidy_of_text hbefore (isPlain_ending hstem hslash hlength) ?_
      rw [htext, List.take_left, Step.text, String.toList_ofList]
      simp
  · exact isTidy_ofSteps h

/-- The extensions that are tried have no slash, and two characters at least. -/
theorem sourceExtensions_plain :
    ∀ e ∈ sourceExtensions, '/' ∉ e.toList ∧ 2 ≤ e.toList.length := by decide

theorem mem_sourceExtensions_of_mem_typedSiblings {extension e : String}
    (h : e ∈ typedSiblings extension) : e ∈ sourceExtensions := by
  unfold typedSiblings at h
  split at h <;> revert e <;> decide

/-- **What a normal form may mean as a file is tidy.** -/
theorem isTidy_of_mem_candidates {p q : Path} (h : q ∈ p.normalize.candidates) : q.IsTidy := by
  have hwritten := isWritten_reduce p
  rw [candidates] at h
  simp only [List.mem_append, List.mem_singleton, List.mem_map] at h
  rcases h with ((rfl | ⟨e, he, rfl⟩) | ⟨e, he, rfl⟩) | ⟨e, he, rfl⟩
  · exact isTidy_normalize p
  · have hsource : e ∈ sourceExtensions := by
      cases hextension : p.normalize.extension? with
      | none => simp [hextension] at he
      | some extension =>
        rw [hextension] at he
        exact mem_sourceExtensions_of_mem_typedSiblings he
    obtain ⟨hslash, hlength⟩ := sourceExtensions_plain e hsource
    exact isTidy_withExtension hwritten hslash hlength
  · obtain ⟨hslash, hlength⟩ := sourceExtensions_plain e he
    exact isTidy_append_ending hwritten hslash hlength
  · obtain ⟨hslash, hlength⟩ := sourceExtensions_plain e he
    have hindex : (Step.name ("index." ++ e)).IsPlain := by
      have hname : "index." ++ e = String.ofList ("index".toList ++ '.' :: e.toList) := by
        rw [← String.toList_inj]
        simp
      rw [hname]
      exact isPlain_ending (by decide) hslash hlength
    exact isTidy_of_text hwritten hindex (toList_join hwritten hindex)

end Path
end DependencyUse
