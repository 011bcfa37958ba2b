/-
# Routes of re-exports

A route is a way along re-exports, said without a search.  It goes from the file that
an import names, along re-exports that stand in the files passed, to the re-export of
an outside module.

| part of a route | condition |
| --- | --- |
| first file | the one that the import names |
| every file | passed once, none of the avoided ones |
| every re-export | a record of its file, not of types only |
| every re-export but the last | names the next file |
| last re-export | names no file |
| all re-exports in order | let some asked-for name through |

A re-export is known by its place among the imports of its file, so two equal
declarations of a file are two routes.  `isRoute_cons_iff` takes a route apart at its
first file, and `isChainOf_cons_iff` does the same for the chain that a route stands
for; nothing else about either is used later.
-/

import DependencyUse.Reexport.Trace
import Mathlib.Data.List.Chain

namespace DependencyUse

/-- `export * from`, which names nothing. -/
def ImportRecord.isStar (r : ImportRecord) : Bool :=
  r.kind == .reexportAll && r.names.isEmpty

namespace Flows

/-- The names that come through re-exports one after the other. -/
def along (flows : Flows) : List ImportRecord → Option Flows
  | [] => some flows
  | r :: rs =>
    match flows.forward r with
    | some (next, _) => next.along rs
    | none => none

/-- **Only `export *` counts as a star.** -/
theorem isStar_of_forward {flows next : Flows} {r : ImportRecord} {star : Bool}
    (h : flows.forward r = some (next, star)) : star = r.isStar := by
  unfold forward at h
  split at h
  · rename_i hk
    split at h
    · rename_i hn
      rw [List.head?_eq_none_iff] at hn
      cases h
      simp [ImportRecord.isStar, hk, hn]
    · rename_i b hn
      obtain ⟨hits, -, he⟩ := Option.map_eq_some_iff.1 h
      cases he
      have hne : r.names ≠ [] := fun h0 => by simp [h0] at hn
      simp [ImportRecord.isStar, hne]
  · rename_i hk
    obtain ⟨hits, -, he⟩ := Option.map_eq_some_iff.1 h
    cases he
    simp [ImportRecord.isStar, hk]
  · cases h

/-- Some name passes a list of records if some passes the first and of these some the rest. -/
theorem isSome_along_cons {flows : Flows} {r : ImportRecord} {rs : List ImportRecord} :
    (flows.along (r :: rs)).isSome = true ↔
      ∃ next star, flows.forward r = some (next, star) ∧ (next.along rs).isSome = true := by
  rw [along]
  cases flows.forward r with
  | none => simp
  | some passed =>
    obtain ⟨next, star⟩ := passed
    simp

end Flows

/-- A re-export by the file it stands in and its place among the imports there. -/
structure Hop where
  file : Path
  index : Nat
  record : ImportRecord
deriving DecidableEq, Repr, Inhabited

namespace Hop

/-- The hop is a re-export of its file, and not of types only. -/
def Stands (view : View Id) (h : Hop) : Prop :=
  (Id.run (view.imports h.file))[h.index]? = some h.record ∧
    h.record.isReexport = true ∧ h.record.typeOnly = false

/-- The hop names the file of the next one. -/
def LeadsTo (view : View Id) (h next : Hop) : Prop :=
  h.record.isRelative = true ∧
    ∃ target, Id.run (view.resolve h.record.specifier h.file) = some target ∧
      target.normalize = next.file

end Hop

/-- A way of at most `room` files from `target` to the re-export of an outside module,
which lets some of `flows` through and passes none of the `avoided` files. -/
structure IsRoute (view : View Id) (avoided : List Path) (room : Nat) (flows : Flows)
    (target : Path) (route : List Hop) : Prop where
  starts : (route.map Hop.file).head? = some target.normalize
  fits : route.length ≤ room
  distinct : (route.map Hop.file).Nodup
  avoids : ∀ h ∈ route, h.file ∉ avoided
  stands : ∀ h ∈ route, h.Stands view
  leads : route.IsChain (Hop.LeadsTo view)
  leaves : ∀ h ∈ route.getLast?, h.record.isRelative = false
  carries : (flows.along (route.map Hop.record)).isSome = true

/-- The chain that a route stands for, after the files `before` and, with `star`,
after an `export *`. -/
structure IsChainOf (display : Path → Path) (before : List Path) (star : Bool) (flows : Flows)
    (route : List Hop) (c : ReexportChain) : Prop where
  files : c.files = (before ++ route.map Hop.file).map display
  depth : c.depth = before.length + route.length
  last : ∃ h, route.getLast? = some h ∧ c.specifier = h.record.specifier ∧
    c.origin = h.record.location
  names : ∃ passed, flows.along (route.map Hop.record) = some passed ∧
    c.forwarded = passed.forwarded ∧
    c.exportedNames = sortUnique compare
      ((passed.forwarded.map BoundName.imported).filter fun name => name != BoundName.wholeName)
  throughStar : c.throughStar = (star || route.any fun h => h.record.isStar)

/-- Files are passed once and none is avoided if the first one is not avoided, and the others
avoid it too. -/
theorem passes_cons_iff {avoided : List Path} {h : Hop} {rest : List Hop} :
    (((h :: rest).map Hop.file).Nodup ∧ ∀ k ∈ h :: rest, k.file ∉ avoided) ↔
      h.file ∉ avoided ∧ (rest.map Hop.file).Nodup ∧ ∀ k ∈ rest, k.file ∉ avoided ++ [h.file] := by
  constructor
  · rintro ⟨hdistinct, havoids⟩
    obtain ⟨hnot, hnodup⟩ := List.nodup_cons.1 hdistinct
    obtain ⟨hfirst, hrest⟩ := List.forall_mem_cons.1 havoids
    refine ⟨hfirst, hnodup, fun k hk hmem => ?_⟩
    rcases List.mem_append.1 hmem with hmem | hmem
    · exact hrest k hk hmem
    · exact hnot (List.mem_map.2 ⟨k, hk, List.mem_singleton.1 hmem⟩)
  · rintro ⟨hfirst, hnodup, hrest⟩
    refine ⟨List.nodup_cons.2 ⟨fun hmem => ?_, hnodup⟩, List.forall_mem_cons.2
      ⟨hfirst, fun k hk hmem => hrest k hk (List.mem_append_left _ hmem)⟩⟩
    obtain ⟨k, hk, hfile⟩ := List.mem_map.1 hmem
    exact hrest k hk (by simp [hfile])

/-- **A route splits at its first file.**  Either its first re-export names an outside
module and the route ends there, or it names a file, from which the rest is a route that
avoids the first file too. -/
theorem isRoute_cons_iff {view : View Id} {avoided : List Path} {room : Nat} {flows : Flows}
    {target : Path} {h : Hop} {rest : List Hop} :
    IsRoute view avoided room flows target (h :: rest) ↔
      h.file = target.normalize ∧ h.file ∉ avoided ∧ h.Stands view ∧
        ∃ less, room = less + 1 ∧ ∃ next star, flows.forward h.record = some (next, star) ∧
          (rest = [] ∧ h.record.isRelative = false ∨
            h.record.isRelative = true ∧
              ∃ goal, Id.run (view.resolve h.record.specifier h.file) = some goal ∧
                IsRoute view (avoided ++ [h.file]) less next goal rest) := by
  constructor
  · intro hr
    have hstart : h.file = target.normalize := by simpa using hr.starts
    have hroom : room = room - 1 + 1 := by have := hr.fits; simp at this; omega
    obtain ⟨havoid, hnodup, havoids⟩ := passes_cons_iff.1 ⟨hr.distinct, hr.avoids⟩
    obtain ⟨hstands, hrest⟩ := List.forall_mem_cons.1 hr.stands
    obtain ⟨next, star, hforward, hcarries⟩ := Flows.isSome_along_cons.1 hr.carries
    refine ⟨hstart, havoid, hstands, room - 1, hroom, next, star, hforward, ?_⟩
    cases rest with
    | nil => exact .inl ⟨rfl, hr.leaves h (by simp)⟩
    | cons h' rest =>
      obtain ⟨⟨hrel, goal, hgoal, hfile⟩, hleads⟩ := List.isChain_cons_cons.1 hr.leads
      refine .inr ⟨hrel, goal, hgoal, ?_⟩
      exact ⟨by simp [hfile], by have := hr.fits; simp at this ⊢; omega, hnodup, havoids, hrest,
        hleads, fun k hk => hr.leaves k (by rwa [List.getLast?_cons_cons]), hcarries⟩
  · rintro ⟨hstart, havoid, hstands, less, rfl, next, star, hforward, hend⟩
    rcases hend with ⟨rfl, hout⟩ | ⟨hrel, goal, hgoal, hr⟩
    · exact ⟨by simp [hstart], by simp, by simp, by simpa using havoid, by simpa using hstands,
        by simp, by simpa using hout, Flows.isSome_along_cons.2 ⟨next, star, hforward, rfl⟩⟩
    · obtain ⟨hdistinct, havoids⟩ := passes_cons_iff.2 ⟨havoid, hr.distinct, hr.avoids⟩
      cases rest with
      | nil => have := hr.starts; simp at this
      | cons h' rest =>
        have hfile : goal.normalize = h'.file := by simpa using hr.starts.symm
        refine ⟨by simp [hstart], by have := hr.fits; simp at this ⊢; omega, hdistinct, havoids,
          List.forall_mem_cons.2 ⟨hstands, hr.stands⟩,
          List.isChain_cons_cons.2 ⟨⟨hrel, goal, hgoal, hfile⟩, hr.leads⟩, ?_,
          Flows.isSome_along_cons.2 ⟨next, star, hforward, hr.carries⟩⟩
        intro k hk
        rw [List.getLast?_cons_cons] at hk
        exact hr.leaves k hk

/-- No route is empty. -/
theorem not_isRoute_nil {view : View Id} {avoided : List Path} {room : Nat} {flows : Flows}
    {target : Path} : ¬ IsRoute view avoided room flows target [] := by
  intro hr
  have := hr.starts
  simp at this

/-- **The chain of a route splits at its first file** in the same way: the rest of the
route has the same chain after one file more. -/
theorem isChainOf_cons_iff {display : Path → Path} {before : List Path} {star isStar : Bool}
    {flows next : Flows} {h h' : Hop} {rest : List Hop} {c : ReexportChain}
    (hforward : flows.forward h.record = some (next, isStar)) :
    IsChainOf display before star flows (h :: h' :: rest) c ↔
      IsChainOf display (before ++ [h.file]) (star || isStar) next (h' :: rest) c := by
  have hfiles : before ++ (h :: h' :: rest).map Hop.file
      = before ++ [h.file] ++ (h' :: rest).map Hop.file := by simp
  have hdepth : before.length + (h :: h' :: rest).length
      = (before ++ [h.file]).length + (h' :: rest).length := by simp; omega
  have halong : flows.along ((h :: h' :: rest).map Hop.record)
      = next.along ((h' :: rest).map Hop.record) := by rw [List.map_cons, Flows.along, hforward]
  have hstar : (star || (h :: h' :: rest).any fun k => k.record.isStar)
      = (star || isStar || (h' :: rest).any fun k => k.record.isStar) := by
    rw [Flows.isStar_of_forward hforward, List.any_cons, Bool.or_assoc]
  constructor
  · rintro ⟨hf, hd, hl, hn, hs⟩
    exact ⟨hf.trans (by rw [hfiles]), hd.trans hdepth, by rwa [List.getLast?_cons_cons] at hl,
      by rwa [halong] at hn, hs.trans hstar⟩
  · rintro ⟨hf, hd, hl, hn, hs⟩
    exact ⟨hf.trans (by rw [hfiles]), hd.trans hdepth.symm, by rwa [List.getLast?_cons_cons],
      by rwa [halong], hs.trans hstar.symm⟩

/-- A route stays one where more files may be passed. -/
theorem IsRoute.mono {view : View Id} {avoided : List Path} {room more : Nat} {flows : Flows}
    {target : Path} {route : List Hop} (h : IsRoute view avoided room flows target route)
    (hle : room ≤ more) : IsRoute view avoided more flows target route :=
  { h with fits := h.fits.trans hle }

/-- **A route stands for one chain.** -/
theorem IsChainOf.unique {display : Path → Path} {before : List Path} {star : Bool} {flows : Flows}
    {route : List Hop} {c c' : ReexportChain} (h : IsChainOf display before star flows route c)
    (h' : IsChainOf display before star flows route c') : c = c' := by
  obtain ⟨last, hlast, hspecifier, horigin⟩ := h.last
  obtain ⟨last', hlast', hspecifier', horigin'⟩ := h'.last
  obtain ⟨passed, hpassed, hforwarded, hnames⟩ := h.names
  obtain ⟨passed', hpassed', hforwarded', hnames'⟩ := h'.names
  obtain rfl : last = last' := Option.some.inj (hlast.symm.trans hlast')
  obtain rfl : passed = passed' := Option.some.inj (hpassed.symm.trans hpassed')
  cases c
  cases c'
  rw [ReexportChain.mk.injEq]
  exact ⟨hspecifier.trans hspecifier'.symm, h.files.trans h'.files.symm, hnames.trans hnames'.symm,
    hforwarded.trans hforwarded'.symm, h.depth.trans h'.depth.symm,
    h.throughStar.trans h'.throughStar.symm, horigin.trans horigin'.symm⟩

end DependencyUse
