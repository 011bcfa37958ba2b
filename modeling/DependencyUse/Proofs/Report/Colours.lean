/-
# Colours change nothing but escape sequences

An escape sequence begins with an escape character and a bracket, and ends with the next `m`.
What is visible of a text is what is left without its escape sequences.

A text with colours shows as another one if it becomes the other one without its escape
sequences, whatever follows, and the other one has no escape character (`ShowsAs`).

| text | shows as |
| --- | --- |
| a plain text | itself |
| a plain text in a style | the text |
| texts one after the other | what they show as, one after the other |

Every part of a report is put together in these ways, so a report with colours shows as the same
report without them.
-/

import DependencyUse.Report.Text
import Mathlib.Data.List.Forall2

namespace DependencyUse
namespace Report

/-! ### What is visible -/

/-- The characters that are not part of an escape sequence; with `true`, a sequence is open at
the start.  A sequence that nothing ends goes to the end of the text. -/
def visibleFrom : Bool → List Char → List Char
  | _, [] => []
  | true, c :: cs => if c = 'm' then visibleFrom false cs else visibleFrom true cs
  | false, '\x1b' :: '[' :: cs => visibleFrom true cs
  | false, c :: cs => c :: visibleFrom false cs

/-- The text without its escape sequences. -/
def withoutEscapes (text : String) : String :=
  String.ofList (visibleFrom false text.toList)

/-- The text has no escape character. -/
def IsPlain (text : String) : Prop :=
  '\x1b' ∉ text.toList

instance (text : String) : Decidable (IsPlain text) :=
  inferInstanceAs (Decidable (¬ _))

/-- A plain text is visible. -/
theorem visibleFrom_append {cs : List Char} (h : '\x1b' ∉ cs) (rest : List Char) :
    visibleFrom false (cs ++ rest) = cs ++ visibleFrom false rest := by
  induction cs with
  | nil => rfl
  | cons c cs ih =>
    rw [List.mem_cons, not_or] at h
    rw [List.cons_append, visibleFrom.eq_4, ih h.2, List.cons_append]
    rintro next rfl
    exact absurd rfl h.1

/-- An open escape sequence is invisible. -/
theorem visibleFrom_inside {codes : List Char} (h : 'm' ∉ codes) (rest : List Char) :
    visibleFrom true (codes ++ 'm' :: rest) = visibleFrom false rest := by
  induction codes with
  | nil => rfl
  | cons c codes ih =>
    rw [List.mem_cons, not_or] at h
    rw [List.cons_append, visibleFrom, if_neg (Ne.symm h.1), ih h.2]

/-- **An escape sequence is invisible.** -/
theorem visibleFrom_escape {codes : String} (h : 'm' ∉ codes.toList) (rest : List Char) :
    visibleFrom false ((escape codes).toList ++ rest) = visibleFrom false rest := by
  have htext : (escape codes).toList ++ rest
      = '\x1b' :: '[' :: (codes.toList ++ 'm' :: rest) := by
    simp [escape]
  rw [htext, visibleFrom, visibleFrom_inside h]

/-! ### Texts with colours -/

/-- Without its escape sequences the first text is the second one, which has none. -/
structure ShowsAs (painted shown : String) : Prop where
  isPlain : IsPlain shown
  visible : ∀ rest, visibleFrom false (painted.toList ++ rest)
    = shown.toList ++ visibleFrom false rest

theorem IsPlain.append {a b : String} (ha : IsPlain a) (hb : IsPlain b) : IsPlain (a ++ b) := by
  rw [IsPlain, String.toList_append, List.mem_append, not_or]
  exact ⟨ha, hb⟩

theorem IsPlain.showsAs {text : String} (h : IsPlain text) : ShowsAs text text :=
  ⟨h, visibleFrom_append h⟩

theorem IsPlain.intercalate {mark : String} (hmark : IsPlain mark) {texts : List String}
    (h : ∀ t ∈ texts, IsPlain t) : IsPlain (mark.intercalate texts) := by
  induction texts with
  | nil => exact List.not_mem_nil
  | cons first texts ih =>
    obtain ⟨hfirst, hrest⟩ := List.forall_mem_cons.1 h
    cases texts with
    | nil => simpa [String.intercalate_singleton] using hfirst
    | cons next texts =>
      rw [String.intercalate_cons_cons]
      exact (hfirst.append hmark).append (ih hrest)

theorem isPlain_toString (n : Nat) : IsPlain (toString n) := by
  rw [IsPlain, Nat.toString_eq_ofList_toDigits, String.toList_ofList]
  intro hmem
  have hdigit := Nat.isDigit_of_mem_toDigits (by decide) (by decide) hmem
  revert hdigit
  decide

namespace ShowsAs

theorem append {a b a' b' : String} (h : ShowsAs a b) (h' : ShowsAs a' b') :
    ShowsAs (a ++ a') (b ++ b') where
  isPlain := h.isPlain.append h'.isPlain
  visible rest := by
    rw [String.toList_append, String.toList_append, List.append_assoc, h.visible, h'.visible,
      List.append_assoc]

/-- Texts one after the other show as what each of them shows as. -/
theorem join {painted shown : List String} (h : List.Forall₂ ShowsAs painted shown) :
    ShowsAs (String.join painted) (String.join shown) := by
  induction h with
  | nil => exact IsPlain.showsAs (by decide)
  | cons hfirst _ ih =>
    rw [String.join_cons, String.join_cons]
    exact hfirst.append ih

theorem unlines {painted shown : List String} (h : List.Forall₂ ShowsAs painted shown) :
    ShowsAs (Report.unlines painted) (Report.unlines shown) := by
  refine join (List.forall₂_map_left_iff.2 (List.forall₂_map_right_iff.2 (h.imp ?_)))
  exact fun _ _ hline => hline.append (IsPlain.showsAs (by decide))

end ShowsAs

/-- **A plain text in a style shows as the text.** -/
theorem showsAs_paint (style : Style) {text : String} (h : IsPlain text) :
    ShowsAs (paint true style text) (paint false style text) where
  isPlain := h
  visible rest := by
    have hcodes : 'm' ∉ style.codes.toList := by cases style <;> decide
    have hend : 'm' ∉ "0".toList := by decide
    show visibleFrom false ((escape style.codes ++ text ++ escape "0").toList ++ rest) = _
    rw [String.toList_append, String.toList_append, List.append_assoc, List.append_assoc,
      visibleFrom_escape hcodes, visibleFrom_append h, visibleFrom_escape hend]
    rfl

/-! ### The parts of a report -/

end Report

/-- The texts of a verdict that a report shows have no escape character.  Its other texts, such
as the snippets of its locations, may have some. -/
structure ComponentResult.ShowsPlain (r : ComponentResult) : Prop where
  name : Report.IsPlain r.component.name
  version : Report.IsPlain r.component.version
  used : ∀ t ∈ r.usage.usedMembers, Report.IsPlain t
  referenced : ∀ t ∈ r.usage.referencedMembers, Report.IsPlain t
  vulnerable : ∀ t ∈ r.usage.vulnerableFunctionsCalled, Report.IsPlain t
  files : ∀ l ∈ r.usage.locations, Report.IsPlain l.file.text
  messages : ∀ w ∈ r.warnings, Report.IsPlain w.message
  places : ∀ w ∈ r.warnings, ∀ l ∈ w.location, Report.IsPlain l.file.text
  notes : ∀ t ∈ r.notes, Report.IsPlain t

namespace Report

theorem isPlain_location {l : Location} (h : IsPlain l.file.text) : IsPlain l.text :=
  (((h.append (by decide)).append (isPlain_toString _)).append (by decide)).append
    (isPlain_toString _)

theorem isPlain_namesLine {title : String} (htitle : IsPlain title) {names : List String}
    (hnames : ∀ t ∈ names, IsPlain t) : ∀ line ∈ namesLine title names, IsPlain line := by
  intro line hline
  unfold namesLine at hline
  split at hline
  · cases hline
  · rw [List.mem_singleton.1 hline]
    have hmark : IsPlain "  " := by decide
    have hcolon : IsPlain ": " := by decide
    have hcomma : IsPlain ", " := by decide
    exact ((hmark.append htitle).append hcolon).append (hcomma.intercalate hnames)

/-- Lines without colours. -/
theorem forall₂_of_isPlain {lines : List String} (h : ∀ line ∈ lines, IsPlain line) :
    List.Forall₂ ShowsAs lines lines :=
  List.forall₂_same.2 fun line hline => (h line hline).showsAs

/-- Lines that are made in the same way with and without colours. -/
theorem forall₂_map {α : Type} {xs : List α} {painted shown : α → String}
    (h : ∀ x ∈ xs, ShowsAs (painted x) (shown x)) :
    List.Forall₂ ShowsAs (xs.map painted) (xs.map shown) :=
  List.forall₂_map_left_iff.2 (List.forall₂_map_right_iff.2 (List.forall₂_same.2 h))

theorem showsAs_titleLine {r : ComponentResult} (h : r.ShowsPlain) :
    ShowsAs (titleLine true r) (titleLine false r) := by
  have hstatus : IsPlain (statusText r.status) := by cases r.status <;> decide
  have hconfidence : IsPlain r.confidence.label := by cases r.confidence <;> decide
  have hblank : IsPlain " " := by decide
  have hgap : IsPlain "  " := by decide
  have hopen : IsPlain " (" := by decide
  have hclose : IsPlain ")" := by decide
  have hversion : ShowsAs
      (if r.component.version.isEmpty then "" else " " ++ paint true .dimmed r.component.version)
      (if r.component.version.isEmpty then "" else " " ++ paint false .dimmed r.component.version) := by
    split
    · exact IsPlain.showsAs (by decide)
    · exact hblank.showsAs.append (showsAs_paint _ h.version)
  have hstart := ((showsAs_paint .bold h.name).append hversion).append hgap.showsAs
  have hpainted := hstart.append (showsAs_paint (statusStyle r.status) hstatus)
  exact ((hpainted.append hopen.showsAs).append hconfidence.showsAs).append hclose.showsAs

/-- Which locations are shown, and how many are left out, does not hang on colours. -/
theorem showsAs_locationLines (details : Bool) {locations : List Location}
    (h : ∀ l ∈ locations, IsPlain l.file.text) :
    List.Forall₂ ShowsAs (locationLines true details locations)
      (locationLines false details locations) := by
  have hmark : IsPlain "  at " := by decide
  have hand : IsPlain "  ... and " := by decide
  have hmore : IsPlain " more" := by decide
  unfold locationLines
  generalize (if details then locations.length else maxLocations) = shown
  refine List.rel_append (forall₂_map fun l hl => ?_) (forall₂_of_isPlain fun line hline => ?_)
  · have hplain := isPlain_location (h l (List.mem_of_mem_take hl))
    exact hmark.showsAs.append (showsAs_paint _ hplain)
  · split at hline
    · rw [List.mem_singleton.1 hline]
      exact (hand.append (isPlain_toString _)).append hmore
    · cases hline

theorem showsAs_warningLine {w : Warning} (hmessage : IsPlain w.message)
    (hplace : ∀ l ∈ w.location, IsPlain l.file.text) :
    ShowsAs (warningLine true w) (warningLine false w) := by
  have hseverity : IsPlain w.severity.label := by cases w.severity <;> decide
  have hlabel : IsPlain w.code.label := by cases w.code <;> decide
  have hblank : IsPlain " " := by decide
  have hgap : IsPlain "  " := by decide
  have hcolon : IsPlain ": " := by decide
  have hopen : IsPlain "[" := by decide
  have hclose : IsPlain "]" := by decide
  have hcode := ((hseverity.append hopen).append hlabel).append hclose
  unfold warningLine
  refine ((((hgap.showsAs.append ?_).append hcolon.showsAs).append hmessage.showsAs).append ?_)
  · split
    · exact showsAs_paint _ hcode
    · exact hcode.showsAs
  · cases hlocation : w.location with
    | none => exact IsPlain.showsAs (by decide)
    | some l =>
      have hplain := isPlain_location (hplace l hlocation)
      have hleft : IsPlain "(" := by decide
      have hright : IsPlain ")" := by decide
      exact hblank.showsAs.append (showsAs_paint _ ((hleft.append hplain).append hright))

/-- **A block shows as the same block without colours**, line by line. -/
theorem showsAs_blockLines (details : Bool) {r : ComponentResult} (h : r.ShowsPlain) :
    List.Forall₂ ShowsAs (blockLines true details r) (blockLines false details r) := by
  have hstyles : ∀ t ∈ r.usage.importStyles.map ImportKind.label, IsPlain t := by
    intro t ht
    obtain ⟨kind, -, rfl⟩ := List.mem_map.1 ht
    cases kind <;> decide
  have hnote : IsPlain "  note: " := by decide
  have hused := forall₂_of_isPlain (isPlain_namesLine (by decide : IsPlain "used") h.used)
  have hreferenced :=
    forall₂_of_isPlain (isPlain_namesLine (by decide : IsPlain "referenced") h.referenced)
  have hvulnerable :=
    isPlain_namesLine (by decide : IsPlain "vulnerable functions called") h.vulnerable
  have himports := isPlain_namesLine (by decide : IsPlain "import styles") hstyles
  refine List.rel_append (List.rel_append (List.rel_append (List.rel_append (List.rel_append
    (List.rel_append (List.rel_append (.cons (showsAs_titleLine h) .nil) hused) hreferenced)
    (forall₂_map fun line hline => showsAs_paint _ (hvulnerable line hline))) ?_)
    (showsAs_locationLines details h.files)) (forall₂_map fun w hw => ?_))
    (forall₂_map fun t ht => hnote.showsAs.append (h.notes t ht).showsAs)
  · refine forall₂_of_isPlain fun line hline => ?_
    split at hline
    · exact himports line hline
    · cases hline
  · have hmem := List.mem_of_mem_filter hw
    exact showsAs_warningLine (h.messages w hmem) (h.places w hmem)

theorem showsAs_summaryLine (results : List ComponentResult) :
    ShowsAs (summaryLine true results) (summaryLine false results) := by
  have hmark : IsPlain "; " := by decide
  have hcalls := (hmark.append (isPlain_toString (Counts.ofResults results).vulnerable)).append
    (by decide : IsPlain " call vulnerable functions")
  have hcount : ∀ {front mark : String}, IsPlain front → IsPlain mark → ∀ n : Nat,
      IsPlain (front ++ toString n ++ mark) :=
    fun hfront hmark n => (hfront.append (isPlain_toString n)).append hmark
  have htotal := (isPlain_toString (Counts.ofResults results).total).append
    (by decide : IsPlain " components: ")
  have hreachable := hcount htotal (by decide : IsPlain " reachable, ")
    (Counts.ofResults results).reachable
  have himported := hcount hreachable (by decide : IsPlain " imported, ")
    (Counts.ofResults results).imported
  have hindirect := hcount himported (by decide : IsPlain " indirect, ")
    (Counts.ofResults results).indirect
  have hnot := hcount hindirect (by decide : IsPlain " not reachable, ")
    (Counts.ofResults results).notReachable
  have hline := hcount hnot (by decide : IsPlain " unknown") (Counts.ofResults results).unknown
  unfold summaryLine
  dsimp only
  split
  · exact hline.showsAs.append (showsAs_paint _ hcalls)
  · exact hline.showsAs

/-- **Colours change nothing but escape sequences.**  Without them a report with colours is the
report without colours, which has no escape character. -/
theorem withoutEscapes_text {results : List ComponentResult} (h : ∀ r ∈ results, r.ShowsPlain)
    (details : Bool) :
    withoutEscapes (text true details results) = text false details results ∧
      IsPlain (text false details results) := by
  have hshows : ShowsAs (text true details results) (text false details results) := by
    refine ShowsAs.append (.join (forall₂_map fun r hr => .unlines ?_))
      (.unlines (.cons (showsAs_summaryLine results) .nil))
    exact List.rel_append (showsAs_blockLines details (h r hr))
      (forall₂_of_isPlain (by decide))
  refine ⟨?_, hshows.isPlain⟩
  have hvisible := hshows.visible []
  rw [withoutEscapes, ← String.toList_inj, String.toList_ofList]
  simpa [visibleFrom] using hvisible

/-- The hypothesis is satisfiable: a verdict with every kind of line, an empty name, and a text
that looks like the end of an escape sequence. -/
theorem withoutEscapes_text_every_line :
    let at_ : Location := { file := ⟨"a[0m.ts"⟩, line := 1, column := 2, snippet := "\x1b[0m" }
    let r : ComponentResult :=
      { component := { name := "", version := "1" }
        status := .reachable
        confidence := .high
        usage :=
          { importStyles := [.named], usedMembers := ["m"], referencedMembers := ["[31m"]
            vulnerableFunctionsCalled := ["m"], locations := [at_, at_, at_, at_] }
        warnings := [Warning.at_ .dynamicCode "eval" at_, Warning.new .skippedFiles "m"]
        notes := ["note"] }
    (∀ r' ∈ [r], r'.ShowsPlain) ∧
      withoutEscapes (text true false [r]) = text false false [r] ∧
      IsPlain (text false false [r]) := by
  intro at_ r
  have h : ∀ r' ∈ [r], r'.ShowsPlain :=
    List.forall_mem_singleton.2 ⟨by decide, by decide, by decide, by decide, by decide, by decide,
      by decide, by decide, by decide⟩
  exact ⟨h, withoutEscapes_text h false⟩

end Report
end DependencyUse
