/-
# What the search for chains finds

The search finds exactly the routes: for every answer to the questions what a file
imports and what a specifier names, the chains of an import are the chains of its
routes, one each, in depth-first order.  Depth first means that of two routes the one
comes first whose re-export stands first in the file where they part; that is the
lexicographic order of the places of their re-exports.

The search is seen as a list of routes (`routes`), which follows its recursion.  Each of
the three facts about the list is an induction on the room that is left:

| fact | lemma |
| --- | --- |
| it holds the routes and nothing else | `mem_routes` |
| it is in depth-first order | `pairwise_routes` |
| its chains are those of the search | `chains_visit` |
-/

import DependencyUse.Proofs.Reexport.Route
import DependencyUse.Proofs.Reexport.State
import Mathlib.Data.List.Forall2

namespace DependencyUse

theorem pairwise_zipIdx {α : Type} (xs : List α) : xs.zipIdx.Pairwise fun a b => a.2 < b.2 := by
  rw [← List.pairwise_map (f := Prod.snd) (R := (· < ·)), List.zipIdx_map_snd]
  exact List.pairwise_lt_range'

namespace Trace

/-- The re-exports of a file along which a search goes on, in order. -/
def hops (view : View Id) (file : Path) : List Hop :=
  ((Id.run (view.imports file)).zipIdx.filter fun (r, _) => follows r).map
    fun (r, i) => ⟨file, i, r⟩

theorem mem_hops {view : View Id} {file : Path} {h : Hop} :
    h ∈ hops view file ↔ h.file = file ∧ h.Stands view := by
  obtain ⟨f, i, r⟩ := h
  simp only [hops, Hop.Stands, follows, List.mem_map, List.mem_filter, List.mem_zipIdx_iff_getElem?,
    Prod.exists, Hop.mk.injEq, Bool.and_eq_true, Bool.not_eq_true']
  constructor
  · rintro ⟨r', i', ⟨hget, hfollows⟩, rfl, rfl, rfl⟩
    exact ⟨rfl, hget, hfollows⟩
  · rintro ⟨rfl, hget, hfollows⟩
    exact ⟨r, i, ⟨hget, hfollows⟩, rfl, rfl, rfl⟩

theorem pairwise_hops (view : View Id) (file : Path) :
    (hops view file).Pairwise fun a b => a.index < b.index :=
  List.pairwise_map.2 ((pairwise_zipIdx _).filter _)

theorem map_record_hops (view : View Id) (file : Path) :
    (hops view file).map Hop.record = (Id.run (view.imports file)).filter follows := by
  conv_rhs => rw [← List.zipIdx_map_fst 0 (Id.run (view.imports file)), List.filter_map]
  simp [hops, Function.comp_def]

/-- The routes that begin with a hop; `rest` are those from the file it names. -/
def onward (view : View Id) (rest : Flows → Path → List (List Hop)) (flows : Flows) (h : Hop) :
    List (List Hop) :=
  match flows.forward h.record with
  | none => []
  | some (next, _) =>
    if h.record.isRelative then
      match Id.run (view.resolve h.record.specifier h.file) with
      | none => []
      | some goal => (rest next goal).map (h :: ·)
    else [[h]]

theorem mem_onward {view : View Id} {rest : Flows → Path → List (List Hop)} {flows : Flows}
    {h : Hop} {route : List Hop} :
    route ∈ onward view rest flows h ↔
      ∃ next star, flows.forward h.record = some (next, star) ∧
        (h.record.isRelative = false ∧ route = [h] ∨
          h.record.isRelative = true ∧
            ∃ goal, Id.run (view.resolve h.record.specifier h.file) = some goal ∧
              ∃ tail ∈ rest next goal, route = h :: tail) := by
  unfold onward
  cases hforward : flows.forward h.record with
  | none => simp
  | some passed =>
    obtain ⟨next, star⟩ := passed
    cases hrel : h.record.isRelative with
    | false => simp
    | true =>
      cases hgoal : Id.run (view.resolve h.record.specifier h.file) with
      | none => simp
      | some goal => simp [eq_comm]

theorem eq_cons_of_mem_onward {view : View Id} {rest : Flows → Path → List (List Hop)}
    {flows : Flows} {h : Hop} {route : List Hop} (hr : route ∈ onward view rest flows h) :
    ∃ tail, route = h :: tail := by
  obtain ⟨_, _, _, hend⟩ := mem_onward.1 hr
  rcases hend with ⟨-, rfl⟩ | ⟨-, _, -, tail, -, rfl⟩
  · exact ⟨[], rfl⟩
  · exact ⟨tail, rfl⟩

/-- The routes from a file, in the order in which a search finds them. -/
def routes (view : View Id) : Nat → List Path → Flows → Path → List (List Hop)
  | 0, _, _, _ => []
  | room + 1, avoided, flows, target =>
    if target.normalize ∈ avoided then []
    else
      (hops view target.normalize).flatMap
        (onward view (routes view room (avoided ++ [target.normalize])) flows)

/-- **The list holds the routes and nothing else.** -/
theorem mem_routes {view : View Id} {room : Nat} {avoided : List Path} {flows : Flows}
    {target : Path} {route : List Hop} :
    route ∈ routes view room avoided flows target ↔
      IsRoute view avoided room flows target route := by
  induction room generalizing avoided flows target route with
  | zero =>
    cases route with
    | nil => simp [routes, not_isRoute_nil]
    | cons h rest => simp [routes, isRoute_cons_iff]
  | succ room ih =>
    rw [routes]
    split
    · rename_i hmem
      refine ⟨fun h => absurd h List.not_mem_nil, fun hr => ?_⟩
      cases route with
      | nil => exact absurd hr not_isRoute_nil
      | cons h rest =>
        obtain ⟨hstart, hnot, -⟩ := isRoute_cons_iff.1 hr
        exact absurd (hstart ▸ hmem) hnot
    · rename_i hmem
      rw [List.mem_flatMap]
      constructor
      · rintro ⟨h, hh, hroute⟩
        obtain ⟨hfile, hstands⟩ := mem_hops.1 hh
        obtain ⟨next, star, hforward, hend⟩ := mem_onward.1 hroute
        rcases hend with ⟨hout, rfl⟩ | ⟨hrel, goal, hgoal, tail, htail, rfl⟩
        · exact isRoute_cons_iff.2 ⟨hfile, hfile ▸ hmem, hstands, room, rfl, next, star, hforward,
            .inl ⟨rfl, hout⟩⟩
        · exact isRoute_cons_iff.2 ⟨hfile, hfile ▸ hmem, hstands, room, rfl, next, star, hforward,
            .inr ⟨hrel, goal, hgoal, by rw [hfile]; exact ih.1 htail⟩⟩
      · intro hr
        cases route with
        | nil => exact absurd hr not_isRoute_nil
        | cons h rest =>
          obtain ⟨hfile, -, hstands, less, hless, next, star, hforward, hend⟩ :=
            isRoute_cons_iff.1 hr
          obtain rfl : room = less := by omega
          refine ⟨h, mem_hops.2 ⟨hfile, hstands⟩, mem_onward.2 ⟨next, star, hforward, ?_⟩⟩
          rcases hend with ⟨rfl, hout⟩ | ⟨hrel, goal, hgoal, hrest⟩
          · exact .inl ⟨hout, rfl⟩
          · exact .inr ⟨hrel, goal, hgoal, rest, ih.2 (hfile ▸ hrest), rfl⟩

/-- One route comes before another: where they part, its re-export stands first. -/
def Before (a b : List Hop) : Prop :=
  List.Lex (· < ·) (a.map Hop.index) (b.map Hop.index)

/-- **The list is in depth-first order.** -/
theorem pairwise_routes (view : View Id) (room : Nat) (avoided : List Path) (flows : Flows)
    (target : Path) : (routes view room avoided flows target).Pairwise Before := by
  induction room generalizing avoided flows target with
  | zero => simp [routes]
  | succ room ih =>
    rw [routes]
    split
    · exact List.Pairwise.nil
    · refine List.pairwise_flatMap.2 ⟨fun h _ => ?_, ?_⟩
      · -- after one hop the order is that of the rest
        unfold onward
        split
        · exact List.Pairwise.nil
        · split
          · split
            · exact List.Pairwise.nil
            · exact List.pairwise_map.2 ((ih _ _ _).imp fun hab => List.Lex.cons hab)
          · exact List.pairwise_singleton _ _
      · refine (pairwise_hops view target.normalize).imp fun {a b} hab x hx y hy => ?_
        obtain ⟨xs, rfl⟩ := eq_cons_of_mem_onward hx
        obtain ⟨ys, rfl⟩ := eq_cons_of_mem_onward hy
        exact List.Lex.rel hab

/-- What a hop adds to a search; `chain` are the files before its own. -/
def hopOutcome (view : View Id) (maxDepth : Nat) (importer : Path) (room : Nat)
    (chain : List Path) (star : Bool) (flows : Flows) (h : Hop) : TraceOutcome :=
  match flows.forward h.record with
  | none => {}
  | some (next, isStar) =>
    if h.record.isRelative then
      match Id.run (view.resolve h.record.specifier h.file) with
      | some target =>
        Id.run (visit view maxDepth importer room (chain ++ [h.file]) (star || isStar) next
          h.record.location target)
      | none => {}
    else { chains := [chainFor view.display (chain ++ [h.file]) (star || isStar) next h.record] }

theorem collect_eq_foldr (step : ImportRecord → Id TraceOutcome) (rs : List ImportRecord) :
    Id.run (collect step rs) = rs.foldr (fun r rest => Id.run (step r) ++ rest) {} := by
  induction rs with
  | nil => rfl
  | cons r rs ih =>
    rw [List.foldr_cons, ← ih]
    rfl

/-- A search that comes back to the importer or to a file on the way stops there. -/
theorem visit_of_mem {m : Type → Type} [Monad m] (view : View m) (maxDepth : Nat)
    (importer : Path) (room : Nat) (chain : List Path) (star : Bool) (flows : Flows)
    (via : Location) (target : Path) (hold : target.normalize ∈ importer :: chain) :
    visit view maxDepth importer room chain star flows via target
      = pure (circular view.display chain via target.normalize) := by
  rw [visit.eq_def, if_pos (by simpa using hold)]

/-- A search that comes to a new file without room stops there. -/
theorem visit_zero {m : Type → Type} [Monad m] (view : View m) (maxDepth : Nat) (importer : Path)
    (chain : List Path) (star : Bool) (flows : Flows) (via : Location) (target : Path)
    (hnew : target.normalize ∉ importer :: chain) :
    visit view maxDepth importer 0 chain star flows via target
      = pure (tooDeep view.display maxDepth via target.normalize) := by
  rw [visit, if_neg (by simpa using hnew)]

/-- **A search that comes to a new file** goes along the hops of the file in order. -/
theorem visit_succ (view : View Id) (maxDepth : Nat) (importer : Path) (room : Nat)
    (chain : List Path) (star : Bool) (flows : Flows) (via : Location) (target : Path)
    (hnew : target.normalize ∉ importer :: chain) :
    Id.run (visit view maxDepth importer (room + 1) chain star flows via target)
      = (hops view target.normalize).foldr
          (fun h rest => hopOutcome view maxDepth importer room chain star flows h ++ rest) {} := by
  have hif : ¬(target.normalize = importer ∨ target.normalize ∈ chain) := by
    simpa using hnew
  have hrecords : (hops view target.normalize).map Hop.record = _ :=
    map_record_hops view target.normalize
  rw [visit, if_neg hif]
  show Id.run (collect _ ((Id.run (view.imports target.normalize)).filter follows)) = _
  rw [collect_eq_foldr, ← hrecords, List.foldr_map]
  refine List.foldr_ext _ _ _ fun h hh rest => ?_
  rw [← (mem_hops.1 hh).1, hopOutcome]
  cases flows.forward h.record with
  | none => rfl
  | some passed =>
    obtain ⟨next, isStar⟩ := passed
    cases h.record.isRelative with
    | false => rfl
    | true =>
      show (match Id.run (view.resolve h.record.specifier h.file) with
        | some goal => Id.run (visit view maxDepth importer room (chain ++ [h.file])
            (star || isStar) next h.record.location goal)
        | none => {}) ++ rest = _
      rfl

theorem chains_foldr (f : Hop → TraceOutcome) (hs : List Hop) :
    (hs.foldr (fun h rest => f h ++ rest) {}).chains = hs.flatMap fun h => (f h).chains := by
  induction hs with
  | nil => rfl
  | cons h hs ih =>
    rw [List.flatMap_cons, ← ih]
    rfl

/-- The chain that a search makes of its last hop. -/
theorem isChainOf_chainFor {display : Path → Path} {before : List Path} {star isStar : Bool}
    {flows next : Flows} {h : Hop} (hforward : flows.forward h.record = some (next, isStar)) :
    IsChainOf display before star flows [h]
      (chainFor display (before ++ [h.file]) (star || isStar) next h.record) where
  files := rfl
  depth := by simp [chainFor]
  last := ⟨h, rfl, rfl, rfl⟩
  names := ⟨next, by simp [Flows.along, hforward], rfl, rfl⟩
  throughStar := by simp [chainFor, Flows.isStar_of_forward hforward]

/-- **The chains of a search are the chains of its routes**, one each and in the same
order. -/
theorem chains_visit (view : View Id) (maxDepth : Nat) (importer : Path) (room : Nat)
    (chain : List Path) (star : Bool) (flows : Flows) (via : Location) (target : Path) :
    List.Forall₂ (IsChainOf view.display chain star flows)
      (routes view room (importer :: chain) flows target)
      (Id.run (visit view maxDepth importer room chain star flows via target)).chains := by
  induction room generalizing chain star flows via target with
  | zero =>
    by_cases hold : target.normalize ∈ importer :: chain
    · rw [visit_of_mem _ _ _ _ _ _ _ _ _ hold]
      exact .nil
    · rw [visit_zero _ _ _ _ _ _ _ _ hold]
      exact .nil
  | succ room ih =>
    by_cases hold : target.normalize ∈ importer :: chain
    · rw [visit_of_mem _ _ _ _ _ _ _ _ _ hold, routes, if_pos hold]
      exact .nil
    · rw [visit_succ _ _ _ _ _ _ _ _ _ hold, routes, if_neg hold, chains_foldr]
      refine List.rel_flatMap (R := fun h k => h = k ∧ h ∈ hops view target.normalize)
        (List.forall₂_same.2 fun h hh => ⟨rfl, hh⟩) ?_
      rintro h _ ⟨rfl, hh⟩
      show List.Forall₂ _ (onward view _ flows h)
        (hopOutcome view maxDepth importer room chain star flows h).chains
      rw [onward, hopOutcome, ← (mem_hops.1 hh).1]
      cases hforward : flows.forward h.record with
      | none => exact .nil
      | some passed =>
        obtain ⟨next, isStar⟩ := passed
        cases hrel : h.record.isRelative with
        | false => exact .cons (isChainOf_chainFor hforward) .nil
        | true =>
          cases hgoal : Id.run (view.resolve h.record.specifier h.file) with
          | none => exact .nil
          | some goal =>
            simp only [if_true, List.forall₂_map_left_iff]
            refine (ih (chain ++ [h.file]) (star || isStar) next h.record.location goal).imp
              fun route c hc => ?_
            cases route with
            | nil => obtain ⟨k, hk, -⟩ := hc.last; simp at hk
            | cons k rest => exact (isChainOf_cons_iff hforward).2 hc

/-- A traced import is a search from the file that it names. -/
theorem trace_eq_visit {view : View Id} {maxDepth : Nat} {r : ImportRecord} {source target : Path}
    (hrel : r.isRelative = true) (hvalue : r.typeOnly = false)
    (htarget : Id.run (view.resolve r.specifier source) = some target) :
    Id.run (trace view maxDepth r source)
      = Id.run (visit view maxDepth source.normalize maxDepth [] false (Flows.requestedBy r)
          r.location target) := by
  rw [trace_eq, hrel, hvalue]
  show Id.run (match Id.run (view.resolve r.specifier source) with
    | none => pure {}
    | some target => visit view maxDepth source.normalize maxDepth [] false (Flows.requestedBy r)
        r.location target) = _
  rw [htarget]

/-- An import that is followed to some chain is relative, not of types only, and names a
file. -/
theorem traced_of_mem_chains {view : View Id} {maxDepth : Nat} {r : ImportRecord} {source : Path}
    {c : ReexportChain} (hc : c ∈ (Id.run (trace view maxDepth r source)).chains) :
    r.isRelative = true ∧ r.typeOnly = false ∧
      ∃ target, Id.run (view.resolve r.specifier source) = some target := by
  cases hrel : r.isRelative with
  | false => simp [trace_eq, hrel] at hc
  | true =>
    cases hvalue : r.typeOnly with
    | true => simp [trace_eq, hvalue] at hc
    | false =>
      cases htarget : Id.run (view.resolve r.specifier source) with
      | some target => exact ⟨rfl, rfl, target, rfl⟩
      | none =>
        have hnone : view.resolve r.specifier source = pure none := htarget
        simp [trace_eq, hrel, hvalue, hnone] at hc

/-- Every chain of a search has a route. -/
theorem exists_route_of_mem_chains_visit {view : View Id} {maxDepth : Nat} {importer : Path}
    {room : Nat} {chain : List Path} {star : Bool} {flows : Flows} {via : Location} {target : Path}
    {c : ReexportChain}
    (hc : c ∈ (Id.run (visit view maxDepth importer room chain star flows via target)).chains) :
    ∃ route, IsRoute view (importer :: chain) room flows target route ∧
      IsChainOf view.display chain star flows route c := by
  obtain ⟨n, hn, rfl⟩ := List.getElem_of_mem hc
  have hall := chains_visit view maxDepth importer room chain star flows via target
  have hlen : n < (routes view room (importer :: chain) flows target).length := by
    rw [hall.length_eq]
    exact hn
  exact ⟨_, mem_routes.1 (List.getElem_mem hlen), hall.get hlen hn⟩

/-- **Every chain of a traced import has a route.** -/
theorem exists_route_of_mem_chains {view : View Id} {maxDepth : Nat} {r : ImportRecord}
    {source : Path} {c : ReexportChain}
    (hc : c ∈ (Id.run (trace view maxDepth r source)).chains) :
    ∃ target route, Id.run (view.resolve r.specifier source) = some target ∧
      IsRoute view [source.normalize] maxDepth (Flows.requestedBy r) target route ∧
      IsChainOf view.display [] false (Flows.requestedBy r) route c := by
  obtain ⟨hrel, hvalue, target, htarget⟩ := traced_of_mem_chains hc
  rw [trace_eq_visit hrel hvalue htarget] at hc
  obtain ⟨route, hroute, hchain⟩ := exists_route_of_mem_chains_visit hc
  exact ⟨target, route, htarget, hroute, hchain⟩

/-- **The chain of every route of a relative import is found.** -/
theorem mem_chains_of_route {view : View Id} {maxDepth : Nat} {r : ImportRecord}
    {source target : Path} {route : List Hop} {c : ReexportChain} (hrel : r.isRelative = true)
    (hvalue : r.typeOnly = false) (htarget : Id.run (view.resolve r.specifier source) = some target)
    (hroute : IsRoute view [source.normalize] maxDepth (Flows.requestedBy r) target route)
    (hc : IsChainOf view.display [] false (Flows.requestedBy r) route c) :
    c ∈ (Id.run (trace view maxDepth r source)).chains := by
  rw [trace_eq_visit hrel hvalue htarget]
  have hall := chains_visit view maxDepth source.normalize maxDepth [] false (Flows.requestedBy r)
    r.location target
  obtain ⟨n, hn, hget⟩ := List.getElem_of_mem (mem_routes.2 hroute)
  have hlen : n < (Id.run (visit view maxDepth source.normalize maxDepth [] false
      (Flows.requestedBy r) r.location target)).chains.length := by
    rw [← hall.length_eq]
    exact hn
  have hfound := hall.get hn hlen
  rw [List.get_eq_getElem, hget] at hfound
  rw [hc.unique hfound]
  exact List.getElem_mem hlen

/-- **A deeper search finds every chain that a shallower one finds.** -/
theorem mem_chains_trace_mono {view : View Id} {maxDepth deeper : Nat} (hle : maxDepth ≤ deeper)
    {r : ImportRecord} {source : Path} {c : ReexportChain}
    (hc : c ∈ (Id.run (trace view maxDepth r source)).chains) :
    c ∈ (Id.run (trace view deeper r source)).chains := by
  obtain ⟨hrel, hvalue, -⟩ := traced_of_mem_chains hc
  obtain ⟨target, route, htarget, hroute, hchain⟩ := exists_route_of_mem_chains hc
  exact mem_chains_of_route hrel hvalue htarget (hroute.mono hle) hchain

/-- No route comes before itself. -/
theorem Before.ne {a b : List Hop} (h : Before a b) : a ≠ b := by
  rintro rfl
  exact List.lex_irrefl Nat.lt_irrefl _ h

/-- **The search is exact.**  For every answer to what files import and what specifiers
name, the chains of a relative import are the chains of its routes of at most `maxDepth`
files that avoid the importer: one chain each, none missed and none twice, in
depth-first order.  No chain ends in a specifier that is relative. -/
theorem chains_trace_eq_routes (view : View Id) (maxDepth : Nat) (r : ImportRecord)
    (source target : Path) (hrel : r.isRelative = true) (hvalue : r.typeOnly = false)
    (htarget : Id.run (view.resolve r.specifier source) = some target) :
    ∃ found : List (List Hop),
      (∀ route, route ∈ found ↔
        IsRoute view [source.normalize] maxDepth (Flows.requestedBy r) target route) ∧
      found.Nodup ∧ found.Pairwise Before ∧
      List.Forall₂ (IsChainOf view.display [] false (Flows.requestedBy r)) found
        (Id.run (trace view maxDepth r source)).chains ∧
      ∀ c ∈ (Id.run (trace view maxDepth r source)).chains, isRelative c.specifier = false := by
  have horder := pairwise_routes view maxDepth [source.normalize] (Flows.requestedBy r) target
  refine ⟨routes view maxDepth [source.normalize] (Flows.requestedBy r) target,
    fun route => mem_routes, ?_, horder, ?_, fun c hc => ?_⟩
  · exact horder.imp Before.ne
  · rw [trace_eq_visit hrel hvalue htarget]
    exact chains_visit view maxDepth source.normalize maxDepth [] false _ r.location target
  · obtain ⟨_, route, -, hroute, hchain⟩ := exists_route_of_mem_chains hc
    obtain ⟨h, hlast, hspec, -⟩ := hchain.last
    rw [hspec]
    exact hroute.leaves h hlast

/-- The answers that two tables give. -/
def tableView (imports : List (Path × List ImportRecord))
    (targets : List ((String × Path) × Path)) : View Id where
  imports file := (imports.lookup file).getD []
  resolve specifier file := targets.lookup (specifier, file)
  display := id

/-- A record at a line of a file. -/
def recordAt (file : String) (line : Nat) (kind : ImportKind) (specifier : String)
    (names : List BoundName) : ImportRecord :=
  (ImportRecord.new specifier kind ⟨⟨file⟩, line, 1, ""⟩).bindAll names

/-- The hypotheses are satisfiable where files lead in a circle: `/a.ts` imports from
`/b.ts`, which forwards all of `/c.ts` and a name of `p`, and `/c.ts` forwards all of
`/b.ts` and of `q`. -/
theorem chains_trace_eq_routes_circle :
    let r := recordAt "/a.ts" 1 .named "./b" [⟨"y", "y"⟩]
    let view := tableView
      [(⟨"/b.ts"⟩, [recordAt "/b.ts" 1 .reexportAll "./c" [],
          recordAt "/b.ts" 2 .reexport "p" [⟨"x", "y"⟩]]),
        (⟨"/c.ts"⟩, [recordAt "/c.ts" 1 .reexportAll "./b" [],
          recordAt "/c.ts" 2 .reexportAll "q" []])]
      [(("./b", ⟨"/a.ts"⟩), ⟨"/b.ts"⟩), (("./c", ⟨"/b.ts"⟩), ⟨"/c.ts"⟩),
        (("./b", ⟨"/c.ts"⟩), ⟨"/b.ts"⟩)]
    r.isRelative = true ∧ r.typeOnly = false ∧
      Id.run (view.resolve r.specifier ⟨"/a.ts"⟩) = some ⟨"/b.ts"⟩ ∧
      ∃ found : List (List Hop),
        (∀ route, route ∈ found ↔
          IsRoute view [(⟨"/a.ts"⟩ : Path).normalize] 5 (Flows.requestedBy r) ⟨"/b.ts"⟩ route) ∧
        found.Nodup ∧ found.Pairwise Before ∧
        List.Forall₂ (IsChainOf view.display [] false (Flows.requestedBy r)) found
          (Id.run (trace view 5 r ⟨"/a.ts"⟩)).chains ∧
        ∀ c ∈ (Id.run (trace view 5 r ⟨"/a.ts"⟩)).chains, isRelative c.specifier = false := by
  intro r view
  have hrel : r.isRelative = true := by decide
  have hvalue : r.typeOnly = false := by decide
  have htarget : Id.run (view.resolve r.specifier ⟨"/a.ts"⟩) = some ⟨"/b.ts"⟩ := by decide
  exact ⟨hrel, hvalue, htarget, chains_trace_eq_routes view 5 r ⟨"/a.ts"⟩ ⟨"/b.ts"⟩ hrel hvalue
    htarget⟩

end Trace
end DependencyUse
