/-
# Shown paths are tidy

A path in normal form is shown by what follows the steps of a base, if it begins with them.
What is shown is cut from the text of the path, from the first of its steps to the last; and
what is cut from a tidy text in this way is the text of the steps that are left.
-/

import DependencyUse.Proofs.Path.Tidy

namespace DependencyUse
namespace Path

theorem exists_front_of_spansAfter? {steps : List Step} {spans rest : List Span}
    (h : spansAfter? steps spans = some rest) : ∃ front, spans = front ++ rest := by
  induction steps generalizing spans with
  | nil =>
    rw [spansAfter?] at h
    cases h
    exact ⟨[], rfl⟩
  | cons s steps ih =>
    cases spans with
    | nil => cases h
    | cons x spans =>
      rw [spansAfter?] at h
      split at h
      · obtain ⟨front, rfl⟩ := ih h
        exact ⟨x :: front, rfl⟩
      · cases h

/-- Joined steps are read from the first of their characters to the last. -/
theorem exists_ends_spansFrom {steps : List Step} (h : ∀ s ∈ steps, s.IsPlain) (hne : steps ≠ [])
    (start : Nat) :
    ∃ first last, (spansFrom start [] (joined steps)).head? = some first ∧ first.start = start ∧
      (spansFrom start [] (joined steps)).getLast? = some last ∧
      last.stop = start + (joined steps).length := by
  induction steps generalizing start with
  | nil => exact absurd rfl hne
  | cons s steps ih =>
    rw [List.forall_mem_cons] at h
    cases steps with
    | nil =>
      rw [joined_singleton, spansFrom_text h.1]
      exact ⟨_, _, rfl, rfl, rfl, rfl⟩
    | cons next steps =>
      rw [joined_cons_cons, spansFrom_append_slash, spansFrom_text h.1]
      obtain ⟨_, last, -, -, hlast, hstop⟩ :=
        ih h.2 (List.cons_ne_nil _ _) (start + ([] : List Char).length + s.text.toList.length + 1)
      refine ⟨_, last, rfl, rfl, ?_, ?_⟩
      · rw [List.getLast?_append, hlast]
        rfl
      · rw [hstop]
        simp only [List.length_append, List.length_cons, List.length_nil]
        omega

/-- **The last of some joined steps are read where they begin**, after the others. -/
theorem exists_spansFrom_append {front back : List Step} (hfront : ∀ s ∈ front, s.IsPlain)
    (hne : back ≠ []) :
    ∃ before, joined (front ++ back) = before ++ joined back ∧ ∀ start, ∃ spans : List Span,
      spans.length = front.length ∧ spansFrom start [] (joined (front ++ back))
        = spans ++ spansFrom (start + before.length) [] (joined back) := by
  induction front with
  | nil => exact ⟨[], rfl, fun start => ⟨[], rfl, rfl⟩⟩
  | cons s front ih =>
    rw [List.forall_mem_cons] at hfront
    obtain ⟨before, hjoined, hspans⟩ := ih hfront.2
    obtain ⟨next, rest, hrest⟩ : ∃ next rest, front ++ back = next :: rest :=
      List.exists_cons_of_ne_nil (by simp [hne])
    have hcons : joined (s :: front ++ back) = s.text.toList ++ '/' :: joined (front ++ back) := by
      rw [List.cons_append, hrest, joined_cons_cons]
    refine ⟨s.text.toList ++ '/' :: before, by rw [hcons, hjoined]; simp, fun start => ?_⟩
    obtain ⟨spans, hlength, heq⟩ :=
      hspans (start + ([] : List Char).length + s.text.toList.length + 1)
    refine ⟨⟨s, start, start + s.text.toList.length⟩ :: spans, congrArg (· + 1) hlength, ?_⟩
    rw [hcons, spansFrom_append_slash, spansFrom_text hfront.1, heq]
    simp only [List.length_nil, List.length_append, List.length_cons, List.cons_append,
      List.nil_append]
    congr 3
    omega

/-- The last of some joined steps, cut from a text, are a tidy path. -/
theorem isTidy_stretch {p : Path} {lead : List Char} {steps : List Step}
    (h : ∀ s ∈ steps, s.IsPlain) (htext : p.text.toList = lead ++ joined steps)
    {front rest : List Span} (hspans : spansFrom lead.length [] (joined steps) = front ++ rest) :
    (p.stretch rest).IsTidy := by
  by_cases hrest : rest = []
  · rw [hrest]
    exact @isTidy_ofSteps [] (.of_plain (by simp))
  · have hsteps : steps = front.map Span.step ++ rest.map Span.step := by
      rw [← steps_joined h lead.length, hspans, List.map_append]
    have hback : ∀ s ∈ rest.map Span.step, s.IsPlain := fun s hs =>
      h s (by rw [hsteps]; exact List.mem_append_right _ hs)
    have hne : rest.map Span.step ≠ [] := by simpa using hrest
    obtain ⟨before, hjoined, hread⟩ := exists_spansFrom_append
      (fun s hs => h s (by rw [hsteps]; exact List.mem_append_left _ hs)) hne
    obtain ⟨spans, hlength, heq⟩ := hread lead.length
    -- what is cut off has as many steps as the front
    have hcut :
        rest = spansFrom (lead.length + before.length) [] (joined (rest.map Span.step)) := by
      rw [← hsteps, hspans] at heq
      exact (List.append_inj heq (by rw [hlength, List.length_map])).2
    obtain ⟨first, last, hfirst, hstart, hlast, hstop⟩ :=
      exists_ends_spansFrom hback hne (lead.length + before.length)
    rw [← hcut] at hfirst hlast
    have hstretch : p.stretch rest = ofSteps (rest.map Span.step) := by
      have hchars : p.text.toList = (lead ++ before) ++ joined (rest.map Span.step) := by
        rw [htext, hsteps, hjoined, List.append_assoc]
      rw [stretch, hfirst, hlast]
      show (⟨String.ofList _⟩ : Path) = _
      rw [hstart, hstop, hchars, ← List.length_append, List.drop_left, Nat.add_sub_cancel_left,
        List.take_length, ← toList_ofSteps hback, String.ofList_toList]
    rw [hstretch]
    exact isTidy_ofSteps (IsWritten.of_plain hback)

theorem spans_ofSteps {steps : List Step} (h : ∀ s ∈ steps, s.IsPlain) :
    (ofSteps steps).spans = spansFrom 0 [] (joined steps) := by
  rw [spans, toList_ofSteps h]
  split
  · rename_i cs heq
    exact absurd heq (joined_ne_slash h cs)
  · rfl

theorem spans_ofSteps_root (steps : List Step) :
    (ofSteps (.root :: steps)).spans = ⟨.root, 0, 1⟩ :: spansFrom 1 [] (joined steps) := by
  rw [spans, toList_ofSteps_root]
  rfl

/-- From the root on to the last step is the whole text. -/
theorem stretch_spans_root {steps : List Step} (h : ∀ s ∈ steps, s.IsPlain) :
    (ofSteps (.root :: steps)).stretch (ofSteps (.root :: steps)).spans
      = ofSteps (.root :: steps) := by
  have hlast : ∃ last, (ofSteps (.root :: steps)).spans.getLast? = some last ∧
      last.stop = (ofSteps (.root :: steps)).text.toList.length := by
    rw [spans_ofSteps_root, toList_ofSteps_root]
    by_cases hne : steps = []
    · rw [hne]
      exact ⟨_, rfl, rfl⟩
    · obtain ⟨_, last, -, -, hlast, hstop⟩ := exists_ends_spansFrom h hne 1
      refine ⟨last, by rw [List.getLast?_cons, hlast]; rfl, ?_⟩
      rw [hstop, List.length_cons]
      omega
  obtain ⟨last, hlast, hstop⟩ := hlast
  rw [stretch, hlast, spans_ofSteps_root]
  show (⟨String.ofList _⟩ : Path) = _
  rw [hstop, List.drop_zero, Nat.sub_zero, List.take_length, String.ofList_toList]

/-- **The last steps of a tidy path are a tidy path.** -/
theorem isTidy_stretch_ofSteps {steps : List Step} (h : IsWritten steps) {front rest : List Span}
    (hspans : (ofSteps steps).spans = front ++ rest) :
    ((ofSteps steps).stretch rest).IsTidy := by
  have hplain : ∀ {steps : List Step}, (∀ s ∈ steps, s.IsPlain) →
      (ofSteps steps).spans = front ++ rest → ((ofSteps steps).stretch rest).IsTidy :=
    fun h hspans =>
      @isTidy_stretch _ [] _ h (toList_ofSteps h) _ _ ((spans_ofSteps h).symm.trans hspans)
  cases steps with
  | nil => exact hplain h hspans
  | cons first steps =>
    cases first with
    | root =>
      cases front with
      | nil =>
        rw [List.nil_append] at hspans
        rw [← hspans, stretch_spans_root h]
        exact isTidy_ofSteps h
      | cons x front =>
        rw [spans_ofSteps_root, List.cons_append] at hspans
        exact @isTidy_stretch _ ['/'] _ h (toList_ofSteps_root steps) _ _ (List.cons.inj hspans).2
    | _ => exact hplain h hspans

/-- **What is shown of a normal form is tidy.** -/
theorem isTidy_displayedFrom (p base : Path) : (p.normalize.displayedFrom base).IsTidy := by
  rw [displayedFrom, relativeTo?]
  cases hafter : spansAfter? base.steps p.normalize.spans with
  | none => exact isTidy_normalize p
  | some rest =>
    obtain ⟨front, hspans⟩ := exists_front_of_spansAfter? hafter
    exact isTidy_stretch_ofSteps (isWritten_reduce p) hspans

end Path
end DependencyUse
