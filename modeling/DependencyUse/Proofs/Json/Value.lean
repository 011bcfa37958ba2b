/-
# Values are read as they are written

A value is `Writable` with some levels if its numbers are words of 64 bits and it nests no
more arrays and objects than there are levels.  Both texts of it spell its tokens, and the
machine that reads its tokens holds the value in the end: what is open around the value
does not matter, as long as there is room for its levels.

| text | why it spells the tokens |
| --- | --- |
| compact | it is the texts of the tokens |
| indented | between the texts of the tokens stand line ends and blanks |

`read?_of_spells` puts the two together.
-/

import DependencyUse.Json.Reader
import DependencyUse.Proofs.Json.Token

namespace DependencyUse
namespace Json

/-- A value that can be read back where `levels` more arrays and objects may be opened. -/
inductive Value.Writable : Nat → Value → Prop
  | null {levels : Nat} : Writable levels .null
  | bool {levels : Nat} (b : Bool) : Writable levels (.bool b)
  | nat {levels n : Nat} (hn : n < 2 ^ 64) : Writable levels (.nat n)
  | string {levels : Nat} (s : String) : Writable levels (.string s)
  | array {levels : Nat} {items : List Value} (h : ∀ v ∈ items, Writable levels v) :
      Writable (levels + 1) (.array items)
  | object {levels : Nat} {fields : List (String × Value)}
      (h : ∀ f ∈ fields, Writable levels f.2) : Writable (levels + 1) (.object fields)

theorem itemTokens_cons_cons (v w : Value) (vs : List Value) :
    itemTokens (v :: w :: vs) = v.tokens ++ .comma :: itemTokens (w :: vs) := by
  rw [itemTokens]
  simp

theorem fieldTokens_cons_cons (f g : String × Value) (fs : List (String × Value)) :
    fieldTokens (f :: g :: fs)
      = .string f.1 :: .colon :: f.2.tokens ++ .comma :: fieldTokens (g :: fs) := by
  rw [fieldTokens]
  simp

/-! ### The machine -/

namespace Machine

theorem run_append (m : Machine) (ts us : List Token) :
    m.run (ts ++ us) = (m.run ts).bind fun m => m.run us := by
  induction ts generalizing m with
  | nil => rfl
  | cons t ts ih =>
    rw [List.cons_append, run, run]
    cases m.step t with
    | none => rfl
    | some next => exact ih next

/-- What holds a value takes no number. -/
theorem step_holds_number (v : Value) (stack : List Frame) (n : Number) :
    (holds v stack).step (.number n) = none := by
  cases stack with
  | nil => rfl
  | cons frame stack => cases frame <;> rfl

/-- After a number the machine holds a value. -/
theorem step_number {m next : Machine} {n : Number} (h : m.step (.number n) = some next) :
    ∃ v stack, next = .holds v stack := by
  cases m with
  | want stack => exact ⟨_, _, (Option.some.inj h).symm⟩
  | arrayStart stack => exact ⟨_, _, (Option.some.inj h).symm⟩
  | holds v stack => rw [step_holds_number] at h; cases h
  | _ => cases h

/-- **What the machine takes has no number after a number.** -/
theorem isChain_of_run {m last : Machine} {ts : List Token} (h : m.run ts = some last) :
    ts.IsChain fun t u => t.isNumber = true → u.isNumber = false := by
  induction ts generalizing m with
  | nil => exact .nil
  | cons t ts ih =>
    rw [run] at h
    cases hstep : m.step t with
    | none => rw [hstep] at h; cases h
    | some next =>
      replace h : next.run ts = some last := by rwa [hstep] at h
      refine (ih h).cons fun u hu ht => ?_
      -- a number after a number would stop the machine, which holds a value
      cases ts with
      | nil => cases hu
      | cons w ts =>
        cases hu
        cases t with
        | number n =>
          obtain ⟨v, stack, rfl⟩ := step_number hstep
          cases u with
          | number k => rw [run, step_holds_number] at h; cases h
          | _ => rfl
        | _ => cases ht

theorem run_arrayStart (stack : List Frame) {t : Token} (ht : t ≠ .closeArray) (ts : List Token) :
    (arrayStart stack).run (t :: ts) = (want (.array [] :: stack)).run (t :: ts) := by
  cases t with
  | closeArray => exact absurd rfl ht
  | _ => rfl

/-- The items of an array after those that are read. -/
theorem run_itemTokens {items : List Value} {stack : List Frame} (hitems : items ≠ [])
    (hread : ∀ v ∈ items, ∀ done, (want (.array done :: stack)).run v.tokens
      = some (.holds v (.array done :: stack))) (done : List Value) :
    (want (.array done :: stack)).run (itemTokens items ++ [.closeArray])
      = some (.holds (.array (done.reverse ++ items)) stack) := by
  induction items generalizing done with
  | nil => exact absurd rfl hitems
  | cons v vs ih =>
    have hv := hread v List.mem_cons_self done
    cases vs with
    | nil =>
      rw [itemTokens, run_append, hv]
      simp [run, step]
    | cons w ws =>
      have hrest := ih (by simp) (fun u hu => hread u (List.mem_cons_of_mem v hu)) (v :: done)
      rw [itemTokens_cons_cons, List.append_assoc, run_append, hv]
      show (want (.array (v :: done) :: stack)).run (itemTokens (w :: ws) ++ [.closeArray]) = _
      rw [hrest, List.reverse_cons, List.append_assoc, List.singleton_append]

/-- The fields of an object after those that are read. -/
theorem run_fieldTokens {fields : List (String × Value)} {stack : List Frame}
    (hfields : fields ≠ [])
    (hread : ∀ f ∈ fields, ∀ done, (want (.object done f.1 :: stack)).run f.2.tokens
      = some (.holds f.2 (.object done f.1 :: stack))) (done : List (String × Value)) :
    (fieldName done stack).run (fieldTokens fields ++ [.closeObject])
      = some (.holds (.object (done.reverse ++ fields)) stack) := by
  induction fields generalizing done with
  | nil => exact absurd rfl hfields
  | cons f fs ih =>
    obtain ⟨name, v⟩ := f
    have hv := hread (name, v) List.mem_cons_self done
    cases fs with
    | nil =>
      show (want (.object done name :: stack)).run (v.tokens ++ [.closeObject]) = _
      rw [run_append, hv]
      simp [run, step]
    | cons g gs =>
      have hrest := ih (by simp) (fun u hu => hread u (List.mem_cons_of_mem _ hu))
        ((name, v) :: done)
      rw [fieldTokens_cons_cons]
      show (want (.object done name :: stack)).run
        (v.tokens ++ .comma :: fieldTokens (g :: gs) ++ [.closeObject]) = _
      rw [List.append_assoc, run_append, hv]
      show (fieldName ((name, v) :: done) stack).run (fieldTokens (g :: gs) ++ [.closeObject]) = _
      rw [hrest, List.reverse_cons, List.append_assoc, List.singleton_append]

end Machine

/-! ### Reading the tokens of a value -/

/-- The tokens of a value do not start by closing an array. -/
theorem exists_tokens_eq_cons (v : Value) : ∃ t ts, v.tokens = t :: ts ∧ t ≠ .closeArray := by
  cases v with
  | array items => exact ⟨.openArray, _, by rw [Value.tokens, List.cons_append], by simp⟩
  | object fields => exact ⟨.openObject, _, by rw [Value.tokens, List.cons_append], by simp⟩
  | _ => exact ⟨_, _, by rw [Value.tokens], by simp⟩

theorem exists_itemTokens_eq_cons (v : Value) (vs : List Value) :
    ∃ t ts, itemTokens (v :: vs) = t :: ts ∧ t ≠ .closeArray := by
  obtain ⟨t, ts, heq, ht⟩ := exists_tokens_eq_cons v
  cases vs with
  | nil => exact ⟨t, ts, by rw [itemTokens, heq], ht⟩
  | cons w vs => exact ⟨t, _, by rw [itemTokens_cons_cons, heq, List.cons_append], ht⟩

theorem exists_fieldTokens_eq_cons (f : String × Value) (fs : List (String × Value)) :
    ∃ ts, fieldTokens (f :: fs) = .string f.1 :: ts := by
  cases fs with
  | nil => exact ⟨_, by rw [fieldTokens]⟩
  | cons g fs => exact ⟨_, by rw [fieldTokens_cons_cons, List.cons_append]⟩

theorem isWritable_of_mem_itemTokens {items : List Value}
    (h : ∀ v ∈ items, ∀ t ∈ v.tokens, t.IsWritable) : ∀ t ∈ itemTokens items, t.IsWritable := by
  induction items with
  | nil => simp [itemTokens]
  | cons v vs ih =>
    have hv := h v List.mem_cons_self
    have hvs := ih fun u hu => h u (List.mem_cons_of_mem v hu)
    cases vs with
    | nil => rwa [itemTokens]
    | cons w ws =>
      intro t ht
      rw [itemTokens_cons_cons, List.mem_append, List.mem_cons] at ht
      rcases ht with ht | rfl | ht
      · exact hv t ht
      · trivial
      · exact hvs t ht

theorem isWritable_of_mem_fieldTokens {fields : List (String × Value)}
    (h : ∀ f ∈ fields, ∀ t ∈ f.2.tokens, t.IsWritable) :
    ∀ t ∈ fieldTokens fields, t.IsWritable := by
  induction fields with
  | nil => simp [fieldTokens]
  | cons f fs ih =>
    have hf := h f List.mem_cons_self
    have hfs := ih fun g hg => h g (List.mem_cons_of_mem f hg)
    cases fs with
    | nil =>
      intro t ht
      rw [fieldTokens, List.mem_cons, List.mem_cons] at ht
      rcases ht with rfl | rfl | ht
      · trivial
      · trivial
      · exact hf t ht
    | cons g gs =>
      intro t ht
      rw [fieldTokens_cons_cons, List.mem_append, List.mem_cons, List.mem_cons, List.mem_cons] at ht
      rcases ht with (rfl | rfl | ht) | rfl | ht
      · trivial
      · trivial
      · exact hf t ht
      · trivial
      · exact hfs t ht

namespace Value.Writable

/-- **The tokens of a value are read as the value**, whatever is open around it. -/
theorem run_tokens {levels : Nat} {v : Value} (h : v.Writable levels) {stack : List Frame}
    (hroom : stack.length + levels ≤ maxDepth) :
    (Machine.want stack).run v.tokens = some (.holds v stack) := by
  induction h generalizing stack with
  | null => rfl
  | bool b => rfl
  | nat hn => rfl
  | string s => rfl
  | @array levels items h ih =>
    have hopen : stack.length < maxDepth := by omega
    rw [tokens, List.cons_append, Machine.run, Machine.step, Machine.start, if_pos hopen]
    cases items with
    | nil => rfl
    | cons v vs =>
      -- the first item is read at the start of the array, the others after a comma
      have hitems : (Machine.want (.array [] :: stack)).run (itemTokens (v :: vs) ++ [.closeArray])
          = some (.holds (.array (v :: vs)) stack) :=
        Machine.run_itemTokens (List.cons_ne_nil v vs)
          (fun u hu done => ih u hu (by rw [List.length_cons]; omega)) []
      obtain ⟨t, ts, heq, ht⟩ := exists_itemTokens_eq_cons v vs
      rw [heq, List.cons_append] at hitems ⊢
      exact (Machine.run_arrayStart stack ht _).trans hitems
  | @object levels fields h ih =>
    have hopen : stack.length < maxDepth := by omega
    rw [tokens, List.cons_append, Machine.run, Machine.step, Machine.start, if_pos hopen]
    cases fields with
    | nil => rfl
    | cons f fs =>
      have hfields : (Machine.fieldName [] stack).run (fieldTokens (f :: fs) ++ [.closeObject])
          = some (.holds (.object (f :: fs)) stack) :=
        Machine.run_fieldTokens (List.cons_ne_nil f fs)
          (fun u hu done => ih u hu (by rw [List.length_cons]; omega)) []
      obtain ⟨ts, heq⟩ := exists_fieldTokens_eq_cons f fs
      rw [heq, List.cons_append] at hfields ⊢
      exact hfields

theorem isWritable_of_mem_tokens {levels : Nat} {v : Value} (h : v.Writable levels) :
    ∀ t ∈ v.tokens, t.IsWritable := by
  induction h with
  | null => simp [tokens, Token.IsWritable]
  | bool b => simp [tokens, Token.IsWritable]
  | string s => simp [tokens, Token.IsWritable]
  | @nat levels n hn =>
    intro t ht
    rw [Value.nat, tokens, List.mem_singleton] at ht
    subst ht
    exact ⟨n, hn, rfl⟩
  | @array levels items h ih =>
    intro t ht
    rw [tokens, List.mem_append, List.mem_cons, List.mem_singleton] at ht
    rcases ht with (rfl | ht) | rfl
    · trivial
    · exact isWritable_of_mem_itemTokens ih t ht
    · trivial
  | @object levels fields h ih =>
    intro t ht
    rw [tokens, List.mem_append, List.mem_cons, List.mem_singleton] at ht
    rcases ht with (rfl | ht) | rfl
    · trivial
    · exact isWritable_of_mem_fieldTokens ih t ht
    · trivial

/-- **Characters that spell the tokens of a value are read as the value.** -/
theorem read?_of_spells {v : Value} (h : v.Writable maxDepth) {text : String}
    (htext : Spells text.toList v.tokens) : Value.read? text = some v := by
  have hrun : (Machine.want []).run v.tokens = some (.holds v []) :=
    h.run_tokens (by simp)
  rw [Value.read?, tokens_of_spells htext h.isWritable_of_mem_tokens (Machine.isChain_of_run hrun),
    Option.bind_some, Value.ofTokens?, hrun]
  rfl

end Value.Writable

/-! ### The two texts of a value -/

theorem spells_flatMap_text (ts : List Token) :
    Spells ((ts.map Token.text).flatMap String.toList) ts := by
  induction ts with
  | nil => exact .done
  | cons t ts ih => exact .token t ih

/-- The compact text says the tokens of the value. -/
theorem Value.spells_compact (v : Value) : Spells v.compact.toList v.tokens := by
  rw [compact, String.toList_join]
  exact spells_flatMap_text v.tokens

theorem spells_lineBreak (depth : Nat) : Spells (lineBreak depth).toList [] := by
  refine .blanks fun c hc => ?_
  have hblank : c = '\n' ∨ c ∈ List.replicate (2 * depth) ' ' := by
    simpa [lineBreak] using hc
  rcases hblank with rfl | hc
  · rfl
  · rw [(List.mem_replicate.1 hc).2]
    rfl

theorem spells_itemPieces {depth : Nat} {items : List Value}
    (h : ∀ v ∈ items, Spells ((v.pieces depth).flatMap String.toList) v.tokens) :
    Spells ((itemPieces depth items).flatMap String.toList) (itemTokens items) := by
  induction items with
  | nil => exact .done
  | cons v vs ih =>
    have hv := (spells_lineBreak depth).append (h v List.mem_cons_self)
    have hvs := ih fun u hu => h u (List.mem_cons_of_mem v hu)
    cases vs with
    | nil =>
      rw [itemPieces, itemTokens]
      exact hv
    | cons w ws =>
      rw [itemTokens_cons_cons, itemPieces, List.flatMap_append]
      · exact hv.append (.token .comma hvs)
      · simp

theorem spells_fieldPieces {depth : Nat} {fields : List (String × Value)}
    (h : ∀ f ∈ fields, Spells ((f.2.pieces depth).flatMap String.toList) f.2.tokens) :
    Spells ((fieldPieces depth fields).flatMap String.toList) (fieldTokens fields) := by
  induction fields with
  | nil => exact .done
  | cons f fs ih =>
    have hcolon : Spells ": ".toList [.colon] := .token .colon (.blank rfl .done)
    have hf := (spells_lineBreak depth).append
      (.token (.string f.1) (hcolon.append (h f List.mem_cons_self)))
    have hfs := ih fun g hg => h g (List.mem_cons_of_mem f hg)
    cases fs with
    | nil =>
      rw [fieldPieces, fieldTokens]
      exact hf
    | cons g gs =>
      rw [fieldTokens_cons_cons, fieldPieces, List.flatMap_append]
      · exact hf.append (.token .comma hfs)
      · simp

theorem Value.Writable.spells_pieces {levels : Nat} {v : Value} (h : v.Writable levels)
    (depth : Nat) : Spells ((v.pieces depth).flatMap String.toList) v.tokens := by
  induction h generalizing depth with
  | null => exact .token .null .done
  | bool b => exact .token (.bool b) .done
  | nat hn => exact .token (.number _) .done
  | string s => exact .token (.string s) .done
  | @array levels items h ih =>
    cases items with
    | nil => exact .token .openArray (.token .closeArray .done)
    | cons v vs =>
      have hitems := spells_itemPieces fun u hu => ih u hu (depth + 1)
      have hclose := (spells_lineBreak depth).append (.token .closeArray .done)
      rw [pieces, tokens, List.flatMap_append]
      exact (Spells.token .openArray hitems).append hclose
  | @object levels fields h ih =>
    cases fields with
    | nil => exact .token .openObject (.token .closeObject .done)
    | cons f fs =>
      have hfields := spells_fieldPieces fun g hg => ih g hg (depth + 1)
      have hclose := (spells_lineBreak depth).append (.token .closeObject .done)
      rw [pieces, tokens, List.flatMap_append]
      exact (Spells.token .openObject hfields).append hclose

/-- The indented text says the tokens of the value. -/
theorem Value.Writable.spells_pretty {levels : Nat} {v : Value} (h : v.Writable levels) :
    Spells v.pretty.toList v.tokens := by
  rw [pretty, String.toList_join]
  exact h.spells_pieces 0

end Json
end DependencyUse
