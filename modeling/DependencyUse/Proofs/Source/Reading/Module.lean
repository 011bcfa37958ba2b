/-
# The tree of a module stands in its text

The rules of the grammar are tied together by depth, and so are the facts about them: readers of
depth `n + 1` lay out what they read because readers of depth `n` do (`lay_rules`).

| of a module that is read | |
| --- | --- |
| its offsets can be those of a text | `Module.isLaidOut_of_read` |
| no name in it has a dot | `Module.isUndotted_of_read` |
-/

import DependencyUse.Proofs.Source.Reading.Statements

namespace DependencyUse
namespace Source
namespace Grammar

open Reader

/-- **The rules lay out what they read** if the readers do that they are given. -/
theorem lay_rule {self : Rules} (hself : self.Lay) : (rule self).Lay where
  expression := lays_expression hself
  assignment := lays_assignment hself
  binary := lays_binary hself
  unary := lays_unary hself
  leftHand := lays_leftHand hself
  primary := lays_primary hself
  statement := lays_statement hself
  type := lays_type hself
  pattern := lays_pattern hself
  markup := lays_markup hself

theorem lay_rules (depth : Nat) : (rules depth).Lay := by
  induction depth with
  | zero =>
    constructor
    all_goals intros
    all_goals exact fun _ _ _ => .reject
  | succ depth ih => exact lay_rule ih

/-- **The statements of a module** stand in its text one after the other. -/
theorem lays_items {self : Rules} (hself : self.Lay) : (items self).Lays (Chained Item.Spans) := by
  intro lo c hc
  refine .loop (I := fun (state : List Item × Bool) => Laid (Chained Item.Spans) lo state.1.reverse)
    ⟨lo, rfl, hc⟩ fun (rev, head) c ⟨mid, hrev, hc⟩ => ?_
  refine stays_atEnd.bind fun ends => ?_
  split
  · exact .pure ⟨mid, hrev, hc⟩
  refine stays_token.bind fun t => ?_
  extract_lets startsWithString
  refine (hself.statement false).bind hc fun item c₁ hi hitem hc₁ => ?_
  split
  · -- A directive is left out; the next statement stands after it all the same.
    split
    · exact .pure ⟨mid, hrev, hc₁.mono (SpanParts.le hitem)⟩
    · exact .pure ⟨hi, hrev.push hitem, hc₁⟩
  · exact .pure ⟨hi, hrev.push hitem, hc₁⟩

end Grammar

/-- **A module that is read** consists of statements that stand in its text one after the
other. -/
theorem Module.chained_of_read {language : Language} {text : String} {m : Module}
    (h : Module.read? language text = some m) : ∃ hi, Chained Item.Spans m.items 0 hi := by
  unfold Module.read? at h
  dsimp only at h
  split at h
  · rename_i items c hrun
    split at h
    · cases h
      obtain ⟨hi, hitems, -⟩ := Grammar.lays_items (Grammar.lay_rules _)
        ⟨fits_next _ _ _ _, Nat.zero_le _⟩ _ _ _ hrun
      exact ⟨hi, hitems⟩
    · cases h
  · cases h

/-- **The offsets in a module that is read** can be those of a text. -/
theorem Module.isLaidOut_of_read {language : Language} {text : String} {m : Module}
    (h : Module.read? language text = some m) : m.isLaidOut = true := by
  obtain ⟨hi, hitems⟩ := Module.chained_of_read h
  exact (Module.isLaidOut_of_chained hitems).1

/-- **No name in a module that is read** has a dot. -/
theorem Module.isUndotted_of_read {language : Language} {text : String} {m : Module}
    (h : Module.read? language text = some m) : m.IsUndotted := by
  obtain ⟨hi, hitems⟩ := Module.chained_of_read h
  exact (Module.isLaidOut_of_chained hitems).2

end Source
end DependencyUse
