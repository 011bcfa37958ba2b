/-
# What a manifest declares

A table of a manifest declares a name if its value for the name is a text.  Of repeated tables
and of repeated names in a table, the last one counts (`Declares`).

| of the components of a manifest | is |
| --- | --- |
| the names | those that some table that counts declares, each once |
| the version of a name | the one in the first of these tables, its home (`IsHome`) |
| the order | by home, and by the bytes of the names within a table |

The entries of a manifest are in this order before any of them is left out, and of a name the
first entry stays.  So an entry that stays is from the home of its name.
-/

import DependencyUse.Manifest
import DependencyUse.Proofs.Distinct
import DependencyUse.Proofs.Json.Fields
import DependencyUse.Proofs.Json.Value
import DependencyUse.Proofs.Outcome
import DependencyUse.Proofs.Text.Bytes

namespace DependencyUse

/-- The place of a table among the tables. -/
def DependencyKind.rank : DependencyKind → Nat
  | .production => 0
  | .development => 1
  | .peer => 2
  | .optional => 3

theorem DependencyKind.eq_of_rank_eq {kind other : DependencyKind} (h : kind.rank = other.rank) :
    kind = other := by
  revert h
  cases kind <;> cases other <;> decide

theorem DependencyKind.mem_all (kind : DependencyKind) : kind ∈ all := by
  cases kind <;> decide

/-- The tables come in the order of their places. -/
theorem DependencyKind.pairwise_all : all.Pairwise fun kind other => kind.rank < other.rank := by
  decide

namespace Manifest

open Json (Value)

/-- The table of a kind gives a name a version. -/
def Declares (v : Value) (kind : DependencyKind) (name version : String) : Prop :=
  ∃ table, v.get? kind.table = some table ∧ table.get? name = some (.string version)

/-- The first table that counts and declares a name. -/
structure IsHome (v : Value) (s : Selection) (name : String) (kind : DependencyKind) : Prop where
  counts : s.includes kind = true
  declares : ∃ version, Declares v kind name version
  first : ∀ other version, other.rank < kind.rank → s.includes other = true →
    ¬ Declares v other name version

/-- A name has one home. -/
theorem IsHome.unique {v : Value} {s : Selection} {name : String} {kind other : DependencyKind}
    (h : IsHome v s name kind) (h' : IsHome v s name other) : kind = other := by
  obtain ⟨version, hversion⟩ := h.declares
  obtain ⟨version', hversion'⟩ := h'.declares
  rcases Nat.lt_trichotomy kind.rank other.rank with hlt | heq | hgt
  · exact absurd hversion (h'.first kind version hlt h.counts)
  · exact DependencyKind.eq_of_rank_eq heq
  · exact absurd hversion' (h.first other version' hgt h'.counts)

/-- The components are what the tables that count declare. -/
structure ListsDeclared (v : Value) (s : Selection) (components : List Component) : Prop where
  distinct : (components.map Component.name).Nodup
  names : ∀ name, name ∈ components.map Component.name ↔
    ∃ kind version, s.includes kind = true ∧ Declares v kind name version
  versions : ∀ c ∈ components, ∃ kind, IsHome v s c.name kind ∧
    Declares v kind c.name c.version ∧
    c = { name := c.name, version := c.version, ecosystem := some "npm" }
  ordered : components.Pairwise fun a b => ∀ kind other, IsHome v s a.name kind →
    IsHome v s b.name other →
      kind.rank < other.rank ∨ kind = other ∧ Text.bytes a.name < Text.bytes b.name

/-! ### The entries -/

/-- The order of entries: by table, then by name. -/
def Before (a b : DependencyEntry) : Prop :=
  a.kind.rank < b.kind.rank ∨ a.kind = b.kind ∧ a.name < b.name

/-- The entries are what the tables declare, in order. -/
structure HasEntries (v : Value) (entries : List DependencyEntry) : Prop where
  mem_iff : ∀ e, e ∈ entries ↔ Declares v e.kind e.name e.version
  ordered : entries.Pairwise Before

theorem string?_eq_some_iff {v : Value} {text : String} :
    v.string? = some text ↔ v = .string text := by
  cases v <;> simp [Value.string?]

/-- **The entries of a table** are what it declares, in the order of names. -/
theorem entries_of_tableEntries {file : Path} {v : Value} {kind : DependencyKind}
    {entries : List DependencyEntry} (h : tableEntries file v kind = .ok entries) :
    (∀ e, e ∈ entries ↔ e.kind = kind ∧ Declares v kind e.name e.version) ∧
      entries.Pairwise fun a b => a.name < b.name := by
  unfold tableEntries at h
  split at h
  · rename_i hnone
    cases h
    refine ⟨fun e => ⟨nofun, ?_⟩, List.Pairwise.nil⟩
    rintro ⟨-, table, htable, -⟩
    rw [hnone] at htable
    cases htable
  · rename_i fields htable
    cases h
    constructor
    · intro e
      rw [List.mem_filterMap]
      constructor
      · rintro ⟨⟨name, value⟩, hmem, he⟩
        obtain ⟨version, hversion, rfl⟩ := Option.map_eq_some_iff.1 he
        rw [string?_eq_some_iff.1 hversion] at hmem
        exact ⟨rfl, _, htable, Value.mem_entries_iff.1 hmem⟩
      · rintro ⟨rfl, table, htable', hversion⟩
        cases htable.symm.trans htable'
        exact ⟨_, Value.mem_entries_iff.2 hversion, rfl⟩
    · refine List.pairwise_filterMap.2 ((Value.inOrder_entries _).imp ?_)
      rintro ⟨name, value⟩ ⟨name', value'⟩ hlt a ha b hb
      obtain ⟨version, -, rfl⟩ := Option.map_eq_some_iff.1 ha
      obtain ⟨version', -, rfl⟩ := Option.map_eq_some_iff.1 hb
      exact hlt
  · cases h

/-- The entries of some tables one after the other. -/
theorem entries_flatten {file : Path} {v : Value} {kinds : List DependencyKind}
    {tables : List (List DependencyEntry)}
    (h : kinds.map (tableEntries file v) = tables.map .ok)
    (hkinds : kinds.Pairwise fun kind other => kind.rank < other.rank) :
    (∀ e, e ∈ tables.flatten ↔ e.kind ∈ kinds ∧ Declares v e.kind e.name e.version) ∧
      tables.flatten.Pairwise Before := by
  induction kinds generalizing tables with
  | nil =>
    rw [List.map_nil, eq_comm, List.map_eq_nil_iff] at h
    subst h
    exact ⟨by simp, List.Pairwise.nil⟩
  | cons kind kinds ih =>
    cases tables with
    | nil => cases h
    | cons table tables =>
      obtain ⟨htable, hrest⟩ := List.cons.inj h
      obtain ⟨hfirst, hkinds⟩ := List.pairwise_cons.1 hkinds
      obtain ⟨hmem, hordered⟩ := entries_of_tableEntries htable
      obtain ⟨hmem', hordered'⟩ := ih hrest hkinds
      rw [List.flatten_cons]
      constructor
      · intro e
        rw [List.mem_append, hmem, hmem', List.mem_cons, or_and_right]
        refine or_congr_left (and_congr_right fun hkind => ?_)
        rw [hkind]
      · refine List.pairwise_append.2 ⟨hordered.imp_of_mem ?_, hordered', fun a ha b hb => ?_⟩
        · intro a b ha hb hlt
          exact .inr ⟨((hmem a).1 ha).1.trans ((hmem b).1 hb).1.symm, hlt⟩
        · refine .inl ?_
          rw [((hmem a).1 ha).1]
          exact hfirst _ ((hmem' b).1 hb).1

/-- **A text that is accepted has the entries of its value.** -/
theorem hasEntries_of_read {file : Path} {text : String} {m : Manifest}
    (h : read file text = .ok m) :
    ∃ v, Value.read? text = some v ∧ HasEntries v m.dependencies := by
  unfold read at h
  split at h
  · rename_i v hv
    refine ⟨v, hv, ?_⟩
    unfold ofJson at h
    split at h
    · obtain ⟨tables, htables, h⟩ := bind_eq_ok_iff.1 h
      cases h
      obtain ⟨hmem, hordered⟩ :=
        entries_flatten (mapM_eq_ok_iff.1 htables) DependencyKind.pairwise_all
      exact ⟨fun e => (hmem e).trans (and_iff_right (DependencyKind.mem_all e.kind)), hordered⟩
    · cases h
  · cases h

/-! ### The components -/

section Kept

variable {v : Value} {s : Selection} {entries kept : List DependencyEntry}
  (hentries : HasEntries v entries)
  (hfirsts : IsFirsts DependencyEntry.name (entries.filter fun e => s.includes e.kind) kept)

include hentries hfirsts

/-- **An entry that stays is from the home of its name.** -/
theorem isHome_of_mem_kept {e : DependencyEntry} (he : e ∈ kept) : IsHome v s e.name e.kind := by
  obtain ⟨hmem, hcounts⟩ := List.mem_filter.1 (hfirsts.sublist.subset he)
  refine ⟨hcounts, ⟨e.version, (hentries.mem_iff e).1 hmem⟩, ?_⟩
  intro other version hrank hother hdeclares
  -- the entry of the earlier table would come after the one that stays
  have hearlier : (⟨e.name, version, other⟩ : DependencyEntry)
      ∈ entries.filter fun e => s.includes e.kind :=
    List.mem_filter.2 ⟨(hentries.mem_iff _).2 hdeclares, hother⟩
  have hordered : (entries.filter fun e => s.includes e.kind).Pairwise Before :=
    hentries.ordered.sublist List.filter_sublist
  rcases hfirsts.eq_or_rel_of_key_eq hordered hearlier he rfl with heq | hlater | ⟨hkind, -⟩
  · exact hrank.ne (congrArg (fun e => e.kind.rank) heq)
  · exact lt_irrefl _ (hlater.trans hrank)
  · exact hrank.ne (congrArg DependencyKind.rank hkind.symm)

/-- The components of the entries that stay are what the tables that count declare. -/
theorem listsDeclared_of_kept : ListsDeclared v s (kept.map component) where
  distinct := by
    rw [List.map_map]
    exact hfirsts.distinct
  names name := by
    rw [List.map_map, List.mem_map]
    constructor
    · rintro ⟨e, he, rfl⟩
      have hhome := isHome_of_mem_kept hentries hfirsts he
      obtain ⟨version, hversion⟩ := hhome.declares
      exact ⟨e.kind, version, hhome.counts, hversion⟩
    · rintro ⟨kind, version, hcounts, hdeclares⟩
      exact hfirsts.exists_key_eq (List.mem_filter.2
        ⟨(hentries.mem_iff ⟨name, version, kind⟩).2 hdeclares, hcounts⟩)
  versions := by
    rintro c hc
    obtain ⟨e, he, rfl⟩ := List.mem_map.1 hc
    have hmem := List.mem_of_mem_filter (hfirsts.sublist.subset he)
    exact ⟨e.kind, isHome_of_mem_kept hentries hfirsts he, (hentries.mem_iff e).1 hmem, rfl⟩
  ordered := by
    have hordered : kept.Pairwise Before :=
      hentries.ordered.sublist (hfirsts.sublist.trans List.filter_sublist)
    refine List.pairwise_map.2 (hordered.imp_of_mem fun {a b} ha hb hbefore => ?_)
    intro kind other hkind hother
    rw [hkind.unique (isHome_of_mem_kept hentries hfirsts ha),
      hother.unique (isHome_of_mem_kept hentries hfirsts hb)]
    exact hbefore.imp_right (And.imp_right Text.bytes_lt_iff.2)

end Kept

/-- **The components of a manifest.**  Of every text that is accepted and every selection of
tables, they are what the tables that count declare: each name once, with the version in the
first of these tables, in the order of tables and of the bytes of names. -/
theorem components_list_declared {file : Path} {text : String} {m : Manifest}
    (h : read file text = .ok m) (s : Selection) :
    ∃ v, Value.read? text = some v ∧ ListsDeclared v s (m.components s) := by
  obtain ⟨v, hv, hentries⟩ := hasEntries_of_read h
  exact ⟨v, hv, listsDeclared_of_kept hentries (isFirsts_distinctBy (fun _ _ => beq_iff_eq) _)⟩

/-- The hypothesis is satisfiable: a name of three tables, one that is given twice, one without a
version in the first table, and a table that does not count. -/
theorem components_list_declared_overlapping :
    let v : Value := .object
      [("dependencies", .object [("b", .string "1"), ("a", .null), ("b", .string "2")]),
        ("optionalDependencies", .object [("a", .string "6"), ("d", .string "7")]),
        ("devDependencies", .object [("b", .string "3"), ("a", .string "4")]),
        ("peerDependencies", .object [("c", .string "5")])]
    let s : Selection := { peer := false }
    let m : Manifest :=
      { name := none, version := none,
        dependencies := [⟨"b", "2", .production⟩, ⟨"a", "4", .development⟩,
          ⟨"b", "3", .development⟩, ⟨"c", "5", .peer⟩, ⟨"a", "6", .optional⟩,
          ⟨"d", "7", .optional⟩] }
    read ⟨fileName⟩ v.compact = .ok m ∧
      (m.components s).map (fun c => (c.name, c.version)) = [("b", "2"), ("a", "4"), ("d", "7")] ∧
      ∃ v', Value.read? v.compact = some v' ∧ ListsDeclared v' s (m.components s) := by
  intro v s m
  have hwritable : v.Writable Json.maxDepth := by
    refine .object (List.forall_mem_cons.2 ⟨.object ?_, List.forall_mem_cons.2 ⟨.object ?_,
      List.forall_mem_cons.2 ⟨.object ?_, List.forall_mem_cons.2 ⟨.object ?_, nofun⟩⟩⟩⟩) <;>
    simp [Value.Writable.string, Value.Writable.null]
  have hread : Value.read? v.compact = some v := hwritable.read?_of_spells v.spells_compact
  have h : read ⟨fileName⟩ v.compact = .ok m := by
    rw [read, hread]
    rfl
  exact ⟨h, by decide, components_list_declared h s⟩

end Manifest
end DependencyUse
