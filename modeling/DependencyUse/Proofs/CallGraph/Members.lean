/-
# All members are found

The members of a name are looked up by a scan that starts at the first name not below `name.` and
stops at the first one that does not start with it.  The scan gives what a filter of the whole set
gives (`NameSet.membersOf_eq_filterMap`), in the order of bytes.  So the other names of the set make
no difference, also those that stand next to `name.` in it.
-/

import DependencyUse.Proofs.CallGraph.Agreement
import DependencyUse.Proofs.Text.Bytes

namespace DependencyUse

/-- **Other names make no difference**, wherever they stand. -/
theorem NameSet.membersOf_insertAll (s : NameSet) {name : String} {others : List String}
    (hothers : ∀ other ∈ others, ¬ (name.toList ++ ['.']) <+: other.toList) :
    (s.insertAll others).membersOf name = s.membersOf name := by
  have hhead : (name ++ ".").toList = name.toList ++ ['.'] := by simp
  have hbelow : (s.insertAll others).below (name ++ ".") = s.below (name ++ ".") := by
    rw [below_eq_filter, below_eq_filter, hhead]
    refine ((s.insertAll others).strict.filter _).eq_of_mem_iff (s.strict.filter _) fun full => ?_
    rw [List.mem_filter, List.mem_filter, mem_insertAll, List.isPrefixOf_iff_prefix]
    exact and_congr_left fun hprefix => or_iff_right fun hother => hothers full hother hprefix
  rw [membersOf, membersOf, hbelow]

/-- A call leaves its callee after its receiver among the called names. -/
theorem Source.Module.qualifiedName_mem_calledNames {locate : Nat → Location} {m : Module}
    {site : CallSite} (h : site ∈ (m.callGraph locate).callSites) :
    site.qualifiedName ∈ (m.callGraph locate).calledNames.toList := by
  refine Module.mem_calledNames_iff_site.2 ⟨site, h, ?_⟩
  rw [CallSite.qualifiedName]
  cases hreceiver : site.receiver with
  | none => exact .inl rfl
  | some receiver => exact .inr ⟨receiver, rfl, rfl⟩

/-- **The scan finds all members.**  For every set of names, which is in the order of bytes, and
every name: the scan gives the same sequence as the whole set, filtered by `name.` and cut down to
the first segments that are not empty; names that do not start with `name.` make no difference to
it.  In every call graph the called members are those that called names lead to, and a name is
invoked exactly if it is called or a called name leads through it.  So no call of a module through
a name is missed. -/
theorem CallGraph.members_miss_no_call (s : NameSet) (name : String) :
    (s.toList.Pairwise fun a b => Text.bytes a < Text.bytes b) ∧
    s.membersOf name = s.toList.filterMap (memberIn? name) ∧
    (∀ others : List String, (∀ other ∈ others, ¬ (name.toList ++ ['.']) <+: other.toList) →
      (s.insertAll others).membersOf name = s.membersOf name) ∧
    (∀ g : CallGraph,
      (∀ member, member ∈ g.calledMembers name ↔
        ∃ full ∈ g.calledNames.toList, LeadsTo name member full) ∧
      (∀ member, member ∈ g.referencedMembers name ↔
        ∃ full ∈ g.referencedNames.toList, LeadsTo name member full) ∧
      (g.isInvoked name = true ↔ name ∈ g.calledNames.toList ∨
        ∃ full ∈ g.calledNames.toList, ∃ member, LeadsTo name member full)) ∧
    ∀ (locate : Nat → Location) (m : Source.Module), ∀ site ∈ (m.callGraph locate).callSites,
      (site.qualifiedName = name → (m.callGraph locate).isInvoked name = true) ∧
      ∀ member, LeadsTo name member site.qualifiedName →
        member ∈ (m.callGraph locate).calledMembers name ∧
          (m.callGraph locate).isInvoked name = true := by
  refine ⟨s.strict.imp Text.bytes_lt_iff.2, s.membersOf_eq_filterMap name,
    fun others => s.membersOf_insertAll, fun g => ⟨fun member => ?_, fun member => ?_, ?_⟩, ?_⟩
  · exact NameSet.mem_membersOf
  · exact NameSet.mem_membersOf
  · exact isInvoked_iff
  · intro locate m site hsite
    have hcalled := Source.Module.qualifiedName_mem_calledNames hsite
    refine ⟨fun hself => isInvoked_iff.2 (.inl (hself ▸ hcalled)), fun member hleads => ?_⟩
    exact ⟨NameSet.mem_membersOf.2 ⟨_, hcalled, hleads⟩,
      isInvoked_iff.2 (.inr ⟨_, hcalled, member, hleads⟩)⟩

/-- Members of `_` among names that stand on both sides of `_.`, and the call `_.fp.map(x)`. -/
theorem CallGraph.members_miss_no_call_around_dot :
    let s := NameSet.ofList ["_.merge", "_.fp.map"]
    let others := ["_", "_-x.a", "_/y.b", "__x.merge", "a.b"]
    let m : Source.Module := ⟨[.other [.expr (.call 0
      (.member (.member (.name "_") "fp") "map") [] [.name "x"])]]⟩
    let site : CallSite := ⟨"map", some "_.fp", .method, default⟩
    (∀ other ∈ others, ¬ ("_".toList ++ ['.']) <+: other.toList) ∧
      (s.insertAll others).toList
        = ["_", "_-x.a", "_.fp.map", "_.merge", "_/y.b", "__x.merge", "a.b"] ∧
      (s.insertAll others).membersOf "_" = ["fp", "merge"] ∧
      site ∈ (m.callGraph fun _ => default).callSites ∧
      LeadsTo "_" "fp" site.qualifiedName ∧
      (m.callGraph fun _ => default).isInvoked "_" = true := by
  intro s others m site
  have hothers : ∀ other ∈ others, ¬ ("_".toList ++ ['.']) <+: other.toList := by decide
  have hsite : site ∈ (m.callGraph fun _ => default).callSites := by decide
  have hleads : LeadsTo "_" "fp" site.qualifiedName :=
    ⟨by decide, by decide, .inr ⟨"map", by decide⟩⟩
  obtain ⟨-, hwhole, hmore, -, hcalls⟩ := CallGraph.members_miss_no_call s "_"
  refine ⟨hothers, by decide, ?_, hsite, hleads, ((hcalls _ m site hsite).2 "fp" hleads).2⟩
  rw [hmore others hothers, hwhole]
  decide

end DependencyUse
