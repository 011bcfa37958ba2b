/-
# What a reader ensures

`p.Ensures c Q` says that whatever `p` reads from the cursor `c` on satisfies `Q`, together with
the cursor after it.  A reader that gives up ensures everything.

The facts about readers are about one bound: `c.At lo` says that the token which is due does not
start before `lo`.

| a reader | from a cursor at `lo` |
| --- | --- |
| `p.Stays` | ends where it started |
| `p.Moves` | ends at `lo` |
| `p.Takes` | ends at `lo + 1`, since it takes a token |
| `p.Lays S` | gives something that stands between `lo` and some `hi`, and ends at `hi` |

A bound is passed on through all tokens that leave nothing in the tree, so the pieces of a tree
are chained without a comparison of offsets.
-/

import DependencyUse.Proofs.Source.Reading.Span
import DependencyUse.Proofs.Source.Reading.Token
import DependencyUse.Source.Reader

namespace DependencyUse
namespace Source

/-- The token that is due fits, and does not start before `lo`. -/
structure Cursor.At (c : Cursor) (lo : Nat) : Prop where
  fits : c.token.Fits c.here c.rest
  le : lo ≤ c.token.start

namespace Cursor.At

variable {c : Cursor} {lo lo' : Nat}

theorem mono (h : c.At lo) (hlo : lo' ≤ lo) : c.At lo' := ⟨h.fits, hlo.trans h.le⟩

theorem start (h : c.At lo) : c.At c.token.start := ⟨h.fits, Nat.le_refl _⟩

end Cursor.At

namespace Reader

variable {α β σ : Type} {p : Reader α} {f : α → Reader β} {c : Cursor} {lo : Nat}

/-- Whatever is read from `c` on satisfies `Q`. -/
def Ensures (p : Reader α) (c : Cursor) (Q : α → Cursor → Prop) : Prop :=
  ∀ ctx a c', p ctx c = some (a, c') → Q a c'

/-- Nothing is taken. -/
def Stays (p : Reader α) : Prop := ∀ c, p.Ensures c fun _ c' => c' = c

/-- Tokens may be taken. -/
def Moves (p : Reader α) : Prop := ∀ ⦃lo c⦄, c.At lo → p.Ensures c fun _ c' => c'.At lo

/-- A token is taken at least. -/
def Takes (p : Reader α) : Prop := ∀ ⦃lo c⦄, c.At lo → p.Ensures c fun _ c' => c'.At (lo + 1)

/-- What was read stands from `lo` on, and reading goes on after it. -/
abbrev Laid (S : α → Nat → Nat → Prop) (lo : Nat) (a : α) (c : Cursor) : Prop :=
  ∃ hi, S a lo hi ∧ c.At hi

/-- What is read stands between where reading starts and where it ends. -/
def Lays (p : Reader α) (S : α → Nat → Nat → Prop) : Prop :=
  ∀ ⦃lo c⦄, c.At lo → p.Ensures c (Laid S lo)

/-! ## Rules -/

namespace Ensures

variable {P Q : α → Cursor → Prop} {R : β → Cursor → Prop}

theorem pure {a : α} (h : Q a c) : (Pure.pure a : Reader α).Ensures c Q := by
  intro ctx a' c' hrun
  cases hrun
  exact h

theorem bind (hp : p.Ensures c P) (hf : ∀ a c', P a c' → (f a).Ensures c' R) :
    (p >>= f).Ensures c R := by
  intro ctx b c' hrun
  obtain ⟨⟨a, c₁⟩, hfirst, hrest⟩ := Option.bind_eq_some_iff.1 hrun
  exact hf a c₁ (hp ctx a c₁ hfirst) ctx b c' hrest

theorem mono (h : p.Ensures c P) (hPQ : ∀ a c', P a c' → Q a c') : p.Ensures c Q :=
  fun ctx a c' hrun => hPQ a c' (h ctx a c' hrun)

theorem reject : (Reader.reject : Reader α).Ensures c Q := by
  intro ctx a c' hrun
  rw [Reader.reject] at hrun
  cases hrun

theorem reject_bind {f : α → Reader β} : ((Reader.reject : Reader α) >>= f).Ensures c R :=
  (reject (Q := fun _ _ => False)).bind fun _ _ h => h.elim

/-- What only looks leaves the cursor where it is. -/
theorem bind_stay {P : α → Prop} (hp : p.Ensures c fun a c' => P a ∧ c' = c)
    (hf : ∀ a, P a → (f a).Ensures c R) : (p >>= f).Ensures c R :=
  hp.bind fun a _ h => h.2 ▸ hf a h.1

theorem pure_bind {a : α} (h : (f a).Ensures c R) : (Pure.pure a >>= f).Ensures c R := h

theorem get_bind {f : Cursor → Reader β} (h : (f c).Ensures c R) : (get >>= f).Ensures c R := h

theorem token_bind {f : Token → Reader β} (h : (f c.token).Ensures c R) :
    (token >>= f).Ensures c R := h

theorem inContext {g : Context → Context} (h : p.Ensures c Q) :
    (Reader.inContext g p).Ensures c Q :=
  fun ctx => h (g ctx)

theorem attempt (h : p.Ensures c Q) :
    (Reader.attempt p).Ensures c fun r c' => r.elim (c' = c) (Q · c') := by
  intro ctx r c' hrun
  unfold Reader.attempt at hrun
  split at hrun
  · rename_i hp
    cases hrun
    exact h ctx _ _ hp
  · cases hrun
    rfl

/-- **A loop** keeps what each of its steps keeps. -/
theorem loop {I : σ → Cursor → Prop} {step : σ → Reader (σ ⊕ α)} {s : σ} (hs : I s c)
    (hstep : ∀ s c, I s c → (step s).Ensures c fun r c' => r.elim (I · c') (Q · c')) :
    (Reader.loop s step).Ensures c Q := by
  have hfor : ∀ (fuel : Nat) (s : σ) (c : Cursor), I s c → (loopFor step fuel s).Ensures c Q := by
    intro fuel
    induction fuel with
    | zero => exact fun s c _ => .reject
    | succ fuel ih =>
      intro s c hs
      refine (hstep s c hs).bind fun r c' hr => ?_
      cases r with
      | inl s' => exact ih s' c' hr
      | inr a => exact .pure hr
  exact fun ctx => hfor ctx.limit s c hs ctx

end Ensures

section Bind

variable {R : β → Cursor → Prop} {S : α → Nat → Nat → Prop}

theorem Stays.bind (hp : p.Stays) (hf : ∀ a, (f a).Ensures c R) : (p >>= f).Ensures c R :=
  (hp c).bind fun a _ hc => hc ▸ hf a

theorem Moves.bind (hp : p.Moves) (hc : c.At lo) (hf : ∀ a c', c'.At lo → (f a).Ensures c' R) :
    (p >>= f).Ensures c R :=
  (hp hc).bind hf

theorem Takes.bind (hp : p.Takes) (hc : c.At lo)
    (hf : ∀ a c', c'.At (lo + 1) → (f a).Ensures c' R) : (p >>= f).Ensures c R :=
  (hp hc).bind hf

theorem Lays.bind (hp : p.Lays S) (hc : c.At lo)
    (hf : ∀ a c' hi, S a lo hi → c'.At hi → (f a).Ensures c' R) : (p >>= f).Ensures c R :=
  (hp hc).bind fun a c' ⟨hi, ha, hc'⟩ => hf a c' hi ha hc'

/-- Two ways to read something, and how it goes on after both. -/
theorem Lays.bind_ite {q : Prop} [Decidable q] {p' : Reader α} (hp : p.Lays S) (hp' : p'.Lays S)
    (hc : c.At lo) (hf : ∀ a c' hi, S a lo hi → c'.At hi → (f a).Ensures c' R) :
    (if q then p >>= f else p' >>= f).Ensures c R := by
  split
  · exact hp.bind hc hf
  · exact hp'.bind hc hf

theorem Moves.bind_ite {q : Prop} [Decidable q] {p' : Reader α} (hp : p.Moves) (hp' : p'.Moves)
    (hc : c.At lo) (hf : ∀ a c', c'.At lo → (f a).Ensures c' R) :
    (if q then p >>= f else p' >>= f).Ensures c R := by
  split
  · exact hp.bind hc hf
  · exact hp'.bind hc hf

/-- Something is taken if it is due. -/
theorem Moves.bind_if {q : Prop} [Decidable q] {a : α} (hp : p.Moves) (hc : c.At lo)
    (hf : ∀ a c', c'.At lo → (f a).Ensures c' R) : (if q then p >>= f else f a).Ensures c R := by
  split
  · exact hp.bind hc hf
  · exact hf a c hc

theorem Moves.bind_unless {q : Prop} [Decidable q] {a : α} (hp : p.Moves) (hc : c.At lo)
    (hf : ∀ a c', c'.At lo → (f a).Ensures c' R) : (if q then f a else p >>= f).Ensures c R := by
  split
  · exact hf a c hc
  · exact hp.bind hc hf

theorem Stays.moves (hp : p.Stays) : p.Moves := fun _ _ hc => (hp _).mono fun _ _ h => h ▸ hc

theorem Takes.moves (hp : p.Takes) : p.Moves :=
  fun _ _ hc => (hp hc).mono fun _ _ h => h.mono (Nat.le_succ _)

theorem Lays.inContext {g : Context → Context} (hp : p.Lays S) : (Reader.inContext g p).Lays S :=
  fun _ _ hc => (hp hc).inContext

theorem Lays.nested (hp : p.Lays S) : (Reader.nested p).Lays S := hp.inContext

theorem Moves.inContext {g : Context → Context} (hp : p.Moves) : (Reader.inContext g p).Moves :=
  fun _ _ hc => (hp hc).inContext

end Bind

/-! ## Looking -/

theorem stays_read : (MonadReader.read : Reader Context).Stays := by
  intro c ctx a c' hrun
  cases hrun
  rfl

theorem stays_lookahead (p : Reader α) : (lookahead p).Stays := by
  intro c ctx a c' hrun
  unfold lookahead at hrun
  split at hrun <;> cases hrun <;> rfl

theorem stays_pure (a : α) : (pure a : Reader α).Stays := fun _ => .pure rfl

theorem Stays.andThen (hp : p.Stays) (hf : ∀ a, (f a).Stays) : (p >>= f).Stays :=
  fun c => hp.bind fun a => hf a c

theorem stays_peeks (p : Reader Bool) : (peeks p).Stays :=
  (stays_lookahead p).andThen fun _ => stays_pure _

theorem stays_token : token.Stays := fun _ => Ensures.get_bind (.pure rfl)

theorem ensures_sign : sign.Ensures c fun s c' => (s ≠ "" → c.token.kind = .sign s) ∧ c' = c := by
  rw [sign]
  refine .token_bind ?_
  split
  · rename_i s hkind
    exact .pure ⟨fun _ => hkind, rfl⟩
  · exact .pure ⟨fun h => absurd rfl h, rfl⟩

theorem ensures_word :
    word.Ensures c fun w c' => (w ≠ "" → ∃ escaped, c.token.kind = .word w escaped) ∧ c' = c := by
  rw [word]
  refine .token_bind ?_
  split
  · rename_i w escaped hkind
    exact .pure ⟨fun _ => ⟨escaped, hkind⟩, rfl⟩
  · exact .pure ⟨fun h => absurd rfl h, rfl⟩

theorem stays_sign : sign.Stays := fun _ => ensures_sign.mono fun _ _ h => h.2

theorem stays_word : word.Stays := fun _ => ensures_word.mono fun _ _ h => h.2

/-- The word that is due has no dot; where none is due, it is empty. -/
theorem ensures_word_undotted (hc : c.At lo) :
    word.Ensures c fun w c' => '.' ∉ w.toList ∧ c' = c := by
  refine ensures_word.mono fun w c' ⟨hw, hc'⟩ => ⟨?_, hc'⟩
  by_cases hempty : w = ""
  · subst hempty
    simp
  · obtain ⟨escaped, hkind⟩ := hw hempty
    exact hc.fits.undotted w escaped hkind

theorem ensures_atSign (s : String) :
    (atSign s).Ensures c fun b c' => (b = true → c.token.kind = .sign s) ∧ c' = c := by
  rw [atSign]
  refine .token_bind ?_
  exact .pure ⟨fun h => by simpa using h, rfl⟩

theorem stays_atSign (s : String) : (atSign s).Stays :=
  fun _ => (ensures_atSign s).mono fun _ _ h => h.2

theorem ensures_atWord {w : String} (hw : w ≠ "") :
    (atWord w).Ensures c fun b c' =>
      (b = true → ∃ escaped, c.token.kind = .word w escaped) ∧ c' = c := by
  rw [atWord]
  refine ensures_word.bind_stay fun v hv => ?_
  refine .pure ⟨fun h => ?_, rfl⟩
  obtain rfl := eq_of_beq h
  exact hv hw

theorem stays_atWord (w : String) : (atWord w).Stays :=
  stays_word.andThen fun _ => stays_pure _

theorem stays_atEnd : atEnd.Stays := stays_token.andThen fun _ => stays_pure _

theorem stays_onNewLine : onNewLine.Stays := stays_token.andThen fun _ => stays_pure _

theorem stays_mayEnd : mayEnd.Stays := stays_token.andThen fun _ => stays_pure _

/-! ## Taking tokens -/

/-- A change of the cursor that keeps the token which is due. -/
theorem ensures_modify {g : Cursor → Cursor} :
    (modify g : Reader PUnit).Ensures c fun _ c' => c' = g c := by
  intro ctx a c' hrun
  cases hrun
  rfl

theorem ensures_set (s : Cursor) : (set s : Reader PUnit).Ensures c fun _ c' => c' = s := by
  intro ctx a c' hrun
  cases hrun
  rfl

/-- Only what was noted differs, not the token which is due. -/
def KeepsToken (p : Reader α) : Prop :=
  ∀ c, p.Ensures c fun _ c' => c'.token = c.token ∧ c'.here = c.here ∧ c'.rest = c.rest

theorem KeepsToken.moves (hp : p.KeepsToken) : p.Moves := by
  intro lo c hc
  refine (hp c).mono fun _ c' ⟨htoken, hhere, hrest⟩ => ⟨?_, htoken ▸ hc.le⟩
  rw [htoken, hhere, hrest]
  exact hc.fits

theorem KeepsToken.bind {R : β → Cursor → Prop} (hp : p.KeepsToken) (hc : c.At lo)
    (hf : ∀ a c', c'.At lo → c'.token = c.token → (f a).Ensures c' R) : (p >>= f).Ensures c R := by
  refine Ensures.bind (hp c) fun a c' ⟨htoken, hhere, hrest⟩ => hf a c' ⟨?_, htoken ▸ hc.le⟩ htoken
  rw [htoken, hhere, hrest]
  exact hc.fits

theorem keepsToken_flag : flag.KeepsToken :=
  fun _ => ensures_modify.mono fun _ _ h => h ▸ ⟨rfl, rfl, rfl⟩

theorem keepsToken_flagIf (bad : Bool) : (flagIf bad).KeepsToken := by
  intro c
  rw [flagIf]
  split
  · exact keepsToken_flag c
  · exact .pure ⟨rfl, rfl, rfl⟩

/-- **Reading goes on at an offset**: the next token does not start before it. -/
theorem ensures_jump {rest : List Char} {offset : Nat} (hlo : lo ≤ offset) :
    (jump rest offset).Ensures c fun _ c' => c'.At lo := by
  rw [jump]
  refine stays_read.bind fun ctx => ensures_modify.mono fun _ c' hc => ?_
  subst hc
  exact ⟨fits_next _ _ _ _, hlo.trans (le_start_next _ _ _ _)⟩

/-- **A token is taken**: what follows starts where it stops, or later. -/
theorem ensures_advance : advance.Ensures c fun _ c' => c'.At c.token.stop := by
  rw [advance]
  refine .get_bind ?_
  exact ensures_jump (Nat.le_refl _)

theorem moves_advance : advance.Moves :=
  fun _ _ hc => ensures_advance.mono fun _ _ h => h.mono (hc.le.trans hc.fits.start_le)

/-- **A solid token is taken**, which leaves a byte behind at least. -/
theorem ensures_advance_solid (hc : c.At lo) (hsolid : c.token.kind.isSolid = true) :
    advance.Ensures c fun _ c' => c'.At (lo + 1) :=
  ensures_advance.mono fun _ _ h =>
    h.mono (Nat.succ_le_of_lt (Nat.lt_of_le_of_lt hc.le (hc.fits.start_lt hsolid)))

theorem ensures_eatSign (s : String) (hc : c.At lo) :
    (eatSign s).Ensures c fun b c' => c'.At lo ∧ (b = true → c'.At (lo + 1)) := by
  rw [eatSign]
  refine (ensures_atSign s).bind_stay fun b hb => ?_
  split
  · rename_i htrue
    refine (ensures_advance_solid hc (by rw [hb htrue, Kind.isSolid])).bind fun _ c' hc' => ?_
    exact .pure ⟨hc'.mono (Nat.le_succ lo), fun _ => hc'⟩
  · exact .pure ⟨hc, fun h => absurd h Bool.false_ne_true⟩

theorem moves_eatSign (s : String) : (eatSign s).Moves :=
  fun _ _ hc => (ensures_eatSign s hc).mono fun _ _ h => h.1

theorem takes_expectSign (s : String) : (expectSign s).Takes := by
  intro lo c hc
  rw [expectSign]
  refine (ensures_eatSign s hc).bind fun b c' ⟨_, hc'⟩ => ?_
  split
  · rename_i htrue
    exact .pure (hc' htrue)
  · exact .reject

theorem moves_expectSign (s : String) : (expectSign s).Moves := (takes_expectSign s).moves

/-- A word is taken as a keyword like any token. -/
theorem ensures_keyword {Q : PUnit → Cursor → Prop}
    (h : ∀ c', c'.token = c.token → c'.here = c.here → c'.rest = c.rest → advance.Ensures c' Q) :
    keyword.Ensures c Q := by
  rw [keyword]
  refine .token_bind ?_
  extract_lets jp
  split
  · exact (keepsToken_flag _).bind fun _ c' ⟨htoken, hhere, hrest⟩ => h c' htoken hhere hrest
  · exact h _ rfl rfl rfl

theorem moves_keyword : keyword.Moves := by
  intro lo c hc
  refine ensures_keyword fun c' htoken hhere hrest => moves_advance ⟨?_, htoken ▸ hc.le⟩
  rw [htoken, hhere, hrest]
  exact hc.fits

theorem ensures_keyword_solid (hc : c.At lo) (hsolid : c.token.kind.isSolid = true) :
    keyword.Ensures c fun _ c' => c'.At (lo + 1) := by
  refine ensures_keyword fun c' htoken hhere hrest => ensures_advance_solid ⟨?_, htoken ▸ hc.le⟩ ?_
  · rw [htoken, hhere, hrest]
    exact hc.fits
  · rw [htoken]
    exact hsolid

theorem ensures_eatWord {w : String} (hw : w ≠ "") (hc : c.At lo) :
    (eatWord w).Ensures c fun b c' => c'.At lo ∧ (b = true → c'.At (lo + 1)) := by
  rw [eatWord]
  refine (ensures_atWord hw).bind_stay fun b hb => ?_
  split
  · rename_i htrue
    obtain ⟨escaped, hkind⟩ := hb htrue
    refine (ensures_keyword_solid hc (by rw [hkind, Kind.isSolid])).bind fun _ c' hc' => ?_
    exact .pure ⟨hc'.mono (Nat.le_succ lo), fun _ => hc'⟩
  · exact .pure ⟨hc, fun h => absurd h Bool.false_ne_true⟩

theorem moves_eatWord (w : String) : (eatWord w).Moves := by
  intro lo c hc
  rw [eatWord]
  refine (stays_atWord w).bind fun b => ?_
  split
  · exact moves_keyword.bind hc fun _ c' hc' => .pure hc'
  · exact .pure hc

theorem takes_expectWord {w : String} (hw : w ≠ "") : (expectWord w).Takes := by
  intro lo c hc
  rw [expectWord]
  refine (ensures_eatWord hw hc).bind fun b c' ⟨_, hc'⟩ => ?_
  split
  · rename_i htrue
    exact .pure (hc' htrue)
  · exact .reject

theorem moves_expectWord (w : String) : (expectWord w).Moves := by
  intro lo c hc
  rw [expectWord]
  refine (moves_eatWord w).bind hc fun b c' hc' => ?_
  split
  · exact .pure hc'
  · exact .reject

theorem moves_semicolon : semicolon.Moves := by
  intro lo c hc
  rw [semicolon]
  refine stays_mayEnd.bind fun b => ?_
  split
  · exact (moves_eatSign _).bind hc fun _ c' hc' => .pure hc'
  · exact .reject

/-- The due token is read again, as one that ends earlier or later. -/
theorem moves_retoken {kind : Kind} {rest : List Char}
    (hrest : byteLength rest < byteLength c.here) (hkind : ∀ w escaped, kind ≠ .word w escaped)
    (hc : c.At lo) : (retoken kind rest).Ensures c fun _ c' => c'.At lo := by
  rw [retoken]
  refine ensures_modify.mono fun _ c' h => ?_
  subst h
  have hpos := Nat.sub_pos_of_lt hrest
  exact {
    fits.start_le := Nat.le_add_right _ _
    fits.start_lt := fun _ => Nat.lt_add_of_pos_right hpos
    fits.shorter := fun _ => hrest
    fits.undotted := fun w escaped h => absurd h (hkind w escaped)
    le := hc.le }

/-! ## Loops -/

theorem moves_loop {step : σ → Reader (σ ⊕ α)} (s : σ) (hstep : ∀ s, (step s).Moves) :
    (Reader.loop s step).Moves := by
  intro lo c hc
  refine .loop (I := fun _ c => c.At lo) hc fun s c hc => (hstep s hc).mono fun r c' hc' => ?_
  cases r <;> exact hc'

/-- Tokens are skipped while they are due. -/
theorem moves_skip {q : Prop} [Decidable q] :
    (if q then do advance; pure (.inl ()) else pure (.inr ()) : Reader (Unit ⊕ Unit)).Moves := by
  intro lo c hc
  split
  · exact moves_advance.bind hc fun _ c₁ hc₁ => .pure hc₁
  · exact .pure hc

/-! ## Lists -/

section Lists

variable {S : α → Nat → Nat → Prop} {item : Reader α}

theorem lays_many (close : String) (hitem : item.Lays S) : (many close item).Lays (Chained S) := by
  intro lo c hc
  refine .loop (I := fun (rev : List α) => Laid (Chained S) lo rev.reverse)
    ⟨lo, rfl, hc⟩ fun rev c ⟨mid, hrev, hc⟩ => ?_
  refine (stays_atSign close).bind fun closes => ?_
  split
  · exact .pure ⟨mid, hrev, hc⟩
  · exact hitem.bind hc fun a c' hi ha hc' => .pure ⟨hi, hrev.push ha, hc'⟩

theorem lays_commaList (close : String) (hitem : item.Lays S) :
    (commaList close item).Lays (Chained S) := by
  intro lo c hc
  refine .loop (I := fun (rev : List α) => Laid (Chained S) lo rev.reverse)
    ⟨lo, rfl, hc⟩ fun rev c ⟨mid, hrev, hc⟩ => ?_
  refine (stays_atSign close).bind fun closes => ?_
  split
  · exact .pure ⟨mid, hrev, hc⟩
  · refine hitem.bind hc fun a c' hi ha hc' => (stays_atSign close).bind fun closes => ?_
    split
    · exact .pure ⟨hi, hrev.push ha, hc'⟩
    · exact (moves_expectSign _).bind hc' fun _ c'' hc'' => .pure ⟨hi, hrev.push ha, hc''⟩

theorem lays_sepBy1 (s : String) (hitem : item.Lays S) : (sepBy1 s item).Lays (Chained S) := by
  intro lo c hc
  refine .loop (I := fun (rev : List α) => Laid (Chained S) lo rev.reverse)
    ⟨lo, rfl, hc⟩ fun rev c ⟨mid, hrev, hc⟩ => ?_
  refine hitem.bind hc fun a c' hi ha hc' => (moves_eatSign s).bind hc' fun more c'' hc'' => ?_
  split
  · exact .pure ⟨hi, hrev.push ha, hc''⟩
  · exact .pure ⟨hi, hrev.push ha, hc''⟩

theorem moves_commaList (close : String) (hitem : item.Moves) : (commaList close item).Moves := by
  refine moves_loop _ fun rev lo c hc => (stays_atSign close).bind fun closes => ?_
  split
  · exact .pure hc
  · refine hitem.bind hc fun a c' hc' => (stays_atSign close).bind fun closes => ?_
    split
    · exact .pure hc'
    · exact (moves_expectSign _).bind hc' fun _ c'' hc'' => .pure hc''

theorem moves_sepBy1 (s : String) (hitem : item.Moves) : (sepBy1 s item).Moves := by
  refine moves_loop _ fun rev lo c hc => ?_
  refine hitem.bind hc fun a c' hc' => (moves_eatSign s).bind hc' fun more c'' hc'' => ?_
  split <;> exact .pure hc''

end Lists

end Reader
end Source
end DependencyUse
