/-
# Paths below a path

A walk of a directory joins names to the path of the directory, one after the other.  The
path need not be tidy; still it is plain what such a path is:

| of a path with names joined to it | is |
| --- | --- |
| the steps | those of the path, then the names (`steps_below`) |
| the file name | the last name (`fileName?_join`) |
| the text | what leads into the path, then the names with slashes between them |
| the path, seen from where the names were joined | the names with slashes between them |

Each is read off `spans_join`: one more name is one more step at the end, and nothing
before it is read in another way.
-/

import DependencyUse.Proofs.Path.Tidy
import Mathlib.Data.List.Induction

namespace DependencyUse
namespace Path

/-- The path with some names joined to it, one after the other. -/
def below (p : Path) (names : List String) : Path :=
  names.foldl (fun p name => p.join ⟨name⟩) p

theorem below_concat (p : Path) (names : List String) (name : String) :
    p.below (names ++ [name]) = (p.below names).join ⟨name⟩ :=
  List.foldl_concat ..

/-- What stands before a name that is joined: the text, and a slash if one is missing. -/
def opening (p : Path) : List Char :=
  if p.text.isEmpty || p.text.toList.getLast? == some '/' then p.text.toList
  else p.text.toList ++ ['/']

/-- The text of a path from another one. -/
theorem toList_join_of_relative (p : Path) {q : Path} (hq : q.isAbsolute = false) :
    (p.join q).text.toList = p.opening ++ q.text.toList := by
  rw [join, if_neg (by simp [hq]), opening]
  split
  · exact String.toList_append
  · simp

theorem toList_join_name (p : Path) {name : String} (h : (Step.name name).IsPlain) :
    (p.join ⟨name⟩).text.toList = p.opening ++ name.toList :=
  toList_join_of_relative p (isAbsolute_of_isPlain h)

/-- What stands after a slash is read on its own, after a text that is not empty. -/
theorem spans_append_slash {p q : Path} {ds : List Char} (hne : p.text.toList ≠ [])
    (hq : q.text.toList = p.text.toList ++ '/' :: ds) :
    q.spans = p.spans ++ spansFrom (p.text.toList.length + 1) [] ds := by
  obtain ⟨c, cs, hp⟩ := List.exists_cons_of_ne_nil hne
  rw [spans, spans, hq, hp, List.cons_append]
  by_cases hc : c = '/'
  · subst hc
    show ⟨.root, 0, 1⟩ :: spansFrom 1 [] (cs ++ '/' :: ds) = ⟨.root, 0, 1⟩ :: spansFrom 1 [] cs ++ _
    rw [spansFrom_append_slash, List.cons_append, List.length_cons]
    congr 3
    simp only [List.length_nil]
    omega
  · split
    · rename_i heq
      exact absurd (List.cons.inj heq).1 hc
    · split
      · rename_i heq
        exact absurd (List.cons.inj heq).1 hc
      · rw [← List.cons_append, spansFrom_append_slash]
        congr 2
        simp

/-- The text is empty, ends in a slash, or gets one. -/
theorem opening_cases (p : Path) :
    (p.text.toList = [] ∧ p.opening = []) ∨
      (∃ before, p.text.toList = before ++ ['/'] ∧ p.opening = before ++ ['/']) ∨
      (p.text.toList ≠ [] ∧ p.opening = p.text.toList ++ ['/']) := by
  rw [opening]
  split
  · rename_i hend
    rw [Bool.or_eq_true, String.isEmpty_iff, ← String.toList_eq_nil_iff, beq_iff_eq,
      List.getLast?_eq_some_iff] at hend
    rcases hend with hempty | ⟨before, hbefore⟩
    · exact .inl ⟨hempty, hempty⟩
    · exact .inr (.inl ⟨before, hbefore, hbefore⟩)
  · rename_i hend
    rw [Bool.or_eq_true, not_or, String.isEmpty_iff, ← String.toList_eq_nil_iff] at hend
    exact .inr (.inr ⟨hend.1, rfl⟩)

/-- **A name that is joined is one more step**, at the end. -/
theorem spans_join (p : Path) {name : String} (h : (Step.name name).IsPlain) :
    (p.join ⟨name⟩).spans
      = p.spans ++ [⟨.name name, p.opening.length, p.opening.length + name.toList.length⟩] := by
  have hread : ∀ start, spansFrom start [] name.toList
      = [⟨.name name, start, start + name.toList.length⟩] := spansFrom_text h
  have htext := toList_join_name p h
  rcases opening_cases p with ⟨hempty, hopening⟩ | ⟨before, hbefore, hopening⟩ | ⟨hne, hopening⟩
  · -- the name is all there is
    have hp : p.spans = [] := by rw [spans, hempty]; rfl
    rw [hopening, List.nil_append] at htext
    rw [hp, hopening, spans, htext]
    split
    · rename_i cs heq
      exact absurd (heq ▸ List.mem_cons_self ..) h.no_slash
    · exact hread 0
  · rw [hopening, List.append_assoc, List.singleton_append] at htext
    by_cases hroot : before = []
    · -- the slash is the root
      subst hroot
      rw [spans, spans, htext, hbefore, hopening]
      exact congrArg (_ :: ·) (hread 1)
    · -- the slash at the end is read as nothing
      have hstem : (⟨String.ofList before⟩ : Path).text.toList = before := String.toList_ofList
      have hbefore : p.text.toList = (⟨String.ofList before⟩ : Path).text.toList ++ '/' :: [] := by
        rw [hstem, hbefore]
      have htext : (p.join ⟨name⟩).text.toList
          = (⟨String.ofList before⟩ : Path).text.toList ++ '/' :: name.toList := by
        rw [hstem, htext]
      have hp := spans_append_slash (hstem.symm ▸ hroot) hbefore
      have hq := spans_append_slash (hstem.symm ▸ hroot) htext
      have hnone : ∀ start, spansFrom start [] [] = [] := fun _ => rfl
      rw [hnone, List.append_nil] at hp
      rw [hq, hp, hread, hstem, hopening, List.length_append, List.length_singleton]
  · rw [hopening, List.append_assoc, List.singleton_append] at htext
    rw [spans_append_slash hne htext, hread, hopening, List.length_append, List.length_singleton]

/-- **The steps below a path** are its own, then the names. -/
theorem steps_below (p : Path) {names : List String}
    (h : ∀ name ∈ names, (Step.name name).IsPlain) :
    (p.below names).steps = p.steps ++ names.map Step.name := by
  induction names using List.reverseRecOn with
  | nil => simp [below]
  | append_singleton names name ih =>
    rw [List.forall_mem_append] at h
    have hlast : (Step.name name).IsPlain := h.2 name (List.mem_singleton.2 rfl)
    rw [below_concat, steps, spans_join _ hlast, List.map_append]
    show (p.below names).steps ++ [.name name] = _
    rw [ih h.1, List.map_append, List.append_assoc]
    rfl

/-- **The file name below a path** is the last name. -/
theorem fileName?_join (p : Path) {name : String} (h : (Step.name name).IsPlain) :
    (p.join ⟨name⟩).fileName? = some name := by
  rw [fileName?, spans_join p h, List.getLast?_concat]

/-- After a name that is joined, a slash is missing. -/
theorem opening_join (p : Path) {name : String} (h : (Step.name name).IsPlain) :
    (p.join ⟨name⟩).opening = (p.join ⟨name⟩).text.toList ++ ['/'] := by
  have hne : name.toList ≠ [] := h.text_ne_nil
  have htext := toList_join_name p h
  have hlast : (p.join ⟨name⟩).text.toList.getLast? ≠ some '/' := by
    rw [htext, List.getLast?_append_of_ne_nil _ hne]
    exact fun hslash => h.no_slash (List.mem_of_getLast? hslash)
  rcases opening_cases (p.join ⟨name⟩) with ⟨hempty, -⟩ | ⟨before, hbefore, -⟩ | ⟨-, hopening⟩
  · rw [htext] at hempty
    exact absurd (List.append_eq_nil_iff.1 hempty).2 hne
  · rw [hbefore, List.getLast?_concat] at hlast
    exact absurd rfl hlast
  · exact hopening

/-- Some names lead on from the path, and the last of them ends its text: the first of the
new steps begins where the path is opened, and the last one ends where the text ends. -/
theorem exists_spans_below (p : Path) {names : List String}
    (h : ∀ name ∈ names, (Step.name name).IsPlain) (hne : names ≠ []) :
    (p.below names).text.toList = p.opening ++ joined (names.map Step.name) ∧
      ∃ more first last, (p.below names).spans = p.spans ++ more ∧
        more.head? = some first ∧ first.start = p.opening.length ∧
        more.getLast? = some last ∧ last.stop = (p.below names).text.toList.length := by
  induction names using List.reverseRecOn with
  | nil => exact absurd rfl hne
  | append_singleton names name ih =>
    rw [List.forall_mem_append] at h
    have hname : (Step.name name).IsPlain := h.2 name (List.mem_singleton.2 rfl)
    have hstop : (p.below names).opening.length + name.toList.length
        = ((p.below names).join ⟨name⟩).text.toList.length := by
      rw [toList_join_name _ hname, List.length_append]
    rw [below_concat, spans_join _ hname]
    rcases List.eq_nil_or_concat names with rfl | ⟨before, last, hnames⟩
    · refine ⟨?_, [_], _, _, rfl, rfl, rfl, rfl, hstop⟩
      rw [toList_join_name _ hname, List.nil_append, List.map_singleton, joined_singleton]
      rfl
    · rw [List.concat_eq_append] at hnames
      have hsome : names ≠ [] := by simp [hnames]
      obtain ⟨htext, more, first, _, hspans, hfirst, hstart, -, -⟩ := ih h.1 hsome
      refine ⟨?_, more ++ [_], first, _, by rw [hspans, List.append_assoc], ?_, hstart,
        List.getLast?_concat, hstop⟩
      · have hopening : (p.below names).opening = (p.below names).text.toList ++ ['/'] := by
          subst hnames
          rw [below_concat]
          exact opening_join _ (h.1 last (by simp))
        rw [toList_join_name _ hname, hopening, htext, List.map_append, List.map_singleton,
          joined_concat (by simpa using hsome)]
        simp [Step.text]
      · rw [List.head?_append, hfirst]
        rfl

theorem spansAfter?_append (front more : List Span) :
    spansAfter? (front.map Span.step) (front ++ more) = some more := by
  induction front with
  | nil => rfl
  | cons x front ih => rw [List.map_cons, List.cons_append, spansAfter?, if_pos rfl, ih]

/-- **Seen from the path, what is below it** is the names with slashes between them. -/
theorem displayedFrom_below (p : Path) {names : List String}
    (h : ∀ name ∈ names, (Step.name name).IsPlain) (hne : names ≠ []) :
    (p.below names).displayedFrom p = ⟨"/".intercalate names⟩ := by
  obtain ⟨htext, more, first, last, hspans, hfirst, hstart, hlast, hstop⟩ :=
    exists_spans_below p h hne
  have hnames : joined (names.map Step.name) = ("/".intercalate names).toList := by
    rw [joined, String.toList_intercalate, List.map_map]
    rfl
  rw [displayedFrom, relativeTo?, hspans, steps, spansAfter?_append]
  show stretch _ more = _
  rw [stretch, hfirst, hlast]
  show (⟨String.ofList _⟩ : Path) = _
  rw [hstart, hstop, htext, List.drop_left, List.length_append, Nat.add_sub_cancel_left,
    List.take_length, hnames, String.ofList_toList]

end Path
end DependencyUse
