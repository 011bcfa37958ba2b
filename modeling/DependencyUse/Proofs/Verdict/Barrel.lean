/-
# What is used through a barrel

A file imports one name of a package, either directly or from a barrel, a file that does
nothing but forward the name.  What counts as used is found by two different rules:

| name | way | used |
| --- | --- | --- |
| a named export | either | the name, if it is invoked |
| `default` | directly | `default`, if it is called itself, and its called members |
| `default` | through the barrel | `default`, if it is invoked |

A name is invoked if it or a member of it is called.  So a barrel is transparent for named
exports, and for a default of which no member but `default` is called.  In every other case
the called members are lost, and with them the affected functions among them.
-/

import DependencyUse.Analysis
import DependencyUse.Proofs.Verdict.Traces

namespace DependencyUse

theorem after?_self (cs : List Char) : after? cs cs = some [] := by
  induction cs with
  | nil => rfl
  | cons c cs ih => rw [after?, if_pos rfl, ih]

/-- A component is named by its name. -/
theorem Component.matchesModule_name {c : Component} (h : c.name ≠ "") :
    c.matchesModule c.name = true := by
  have hempty : c.name.isEmpty = false := by simpa using h
  rw [matchesModule, hempty, rest?, after?_self]
  rfl

theorem eq_append_of_after? {head cs rest : List Char} (h : after? head cs = some rest) :
    cs = head ++ rest := by
  induction head generalizing cs with
  | nil => exact Option.some.inj h
  | cons x head ih =>
    cases cs with
    | nil => cases h
    | cons y cs =>
      rw [after?] at h
      split at h
      · rename_i hxy
        rw [hxy, ih h]
        rfl
      · cases h

/-- A specifier that names a component is its name, or its name, a slash and a path. -/
theorem Component.eq_or_of_matchesModule {c : Component} {specifier : String}
    (h : c.matchesModule specifier = true) :
    c.name ≠ "" ∧ (specifier = c.name ∨
      ∃ rest, specifier.toList = c.name.toList ++ '/' :: rest) := by
  unfold matchesModule at h
  split at h
  · cases h
  · rename_i hempty
    refine ⟨by simpa using hempty, ?_⟩
    split at h
    · rename_i hrest
      refine .inl (String.toList_inj.1 ?_)
      simpa using eq_append_of_after? hrest
    · rename_i ch rest hrest
      obtain rfl : ch = '/' := by simpa using h
      exact .inr ⟨rest, eq_append_of_after? hrest⟩
    · cases h

theorem isRelative_iff {specifier : String} :
    isRelative specifier = true ↔ specifier.toList = ['.'] ∨ specifier.toList = ['.', '.'] ∨
      ['.', '/'] <+: specifier.toList ∨ ['.', '.', '/'] <+: specifier.toList := by
  have hdot : specifier = "." ↔ specifier.toList = ['.'] := by rw [← String.toList_inj]; rfl
  have hdots : specifier = ".." ↔ specifier.toList = ['.', '.'] := by rw [← String.toList_inj]; rfl
  simp only [isRelative, Bool.or_eq_true, beq_iff_eq, List.isPrefixOf_iff_prefix, hdot, hdots,
    or_assoc]
  rfl

/-- What stands before a slash of a relative specifier is relative. -/
theorem isRelative_of_append {head specifier : String} {rest : List Char} (hne : head ≠ "")
    (hspecifier : specifier.toList = head.toList ++ '/' :: rest)
    (h : isRelative specifier = true) : isRelative head = true := by
  rw [isRelative_iff] at h ⊢
  rw [hspecifier] at h
  have hnil : head.toList ≠ [] := by simpa using hne
  match head.toList, h, hnil with
  | [a], h, _ =>
    have ha : '.' = a := by simpa using h
    exact .inl (by rw [ha])
  | [a, b], h, _ => simpa [eq_comm, or_comm] using h
  | a :: b :: c :: t, h, _ => simpa using h

/-- **A relative specifier names no package.** -/
theorem Component.matchesModule_of_isRelative {c : Component} {specifier : String}
    (hrelative : isRelative specifier = true) (hname : isRelative c.name = false) :
    c.matchesModule specifier = false := by
  rw [Bool.eq_false_iff]
  intro h
  obtain ⟨hne, rfl | ⟨rest, hrest⟩⟩ := c.eq_or_of_matchesModule h
  · rw [hrelative] at hname
    cases hname
  · rw [isRelative_of_append hne hrest hrelative] at hname
    cases hname

/-- `export { name } from 'package'`. -/
def ImportRecord.forwarding (package name : String) (location : Location) : ImportRecord :=
  ⟨package, .reexport, [⟨name, name⟩], false, location⟩

/-- The file with one import. -/
def ParsedFile.importing (file : ParsedFile) (r : ImportRecord) : ParsedFile :=
  { file with imports := [r] }

/-- A project in which `a` imports one name of a package, and a project in which `a` imports
the name from `b`, which does nothing but forward it from the package. -/
structure IsBarrel (d : Disk) (direct barrel : Project) (a b : ParsedFile) (r : ImportRecord)
    (bound : BoundName) (specifier : String) : Prop where
  package : r.specifier ≠ "" ∧ isRelative r.specifier = false
  names : r.names = [bound]
  /-- the name is a named export or `default` -/
  notWhole : bound.isWhole = false
  direct : direct.files = [a.importing r]
  /-- the two files are in either order -/
  barrel : barrel.files.Perm [a.importing { r with specifier }, b]
  forwards : ∃ location,
    b.imports = [ImportRecord.forwarding r.specifier bound.imported location]
  resolves : ∃ target, d.resolve? specifier a.path = some target ∧
    target.normalize = b.path.normalize
  other : b.path.normalize ≠ a.path.normalize

namespace IsBarrel

variable {d : Disk} {direct barrel : Project} {a b : ParsedFile} {r : ImportRecord}
  {bound : BoundName} {specifier : String}

theorem isRelative_specifier (h : IsBarrel d direct barrel a b r bound specifier) :
    isRelative specifier = true := by
  obtain ⟨target, hresolve, -⟩ := h.resolves
  unfold Disk.resolve? at hresolve
  split at hresolve
  · rename_i hrelative
    exact hrelative
  · cases hresolve

theorem mem_barrel (h : IsBarrel d direct barrel a b r bound specifier) {file : ParsedFile} :
    file ∈ barrel.files ↔ file = a.importing { r with specifier } ∨ file = b := by
  rw [h.barrel.mem_iff]
  simp

/-- The barrel is read as it is. -/
theorem imports_view (h : IsBarrel d direct barrel a b r bound specifier) :
    Id.run ((barrel.view d).imports b.path.normalize) = b.imports := by
  rw [Project.imports_view, Path.normalize_normalize]
  cases hfind : barrel.files.reverse.find? fun f => f.path.normalize = b.path.normalize with
  | none =>
    have hb := List.find?_eq_none.1 hfind b (List.mem_reverse.2 (h.mem_barrel.2 (.inr rfl)))
    simp at hb
  | some found =>
    have hfound : found.path.normalize = b.path.normalize := by
      simpa using List.find?_some hfind
    rcases h.mem_barrel.1 (List.mem_reverse.1 (List.mem_of_find?_eq_some hfind)) with rfl | rfl
    · exact absurd hfound.symm h.other
    · rfl

/-- The re-export lets the name through, and it is the last one on the way. -/
theorem hopOutcome_forwarding {package : String} (hpackage : isRelative package = false)
    (view : View Id) (maxDepth : Nat) (importer : Path) (room : Nat) (file : Path) (name : String)
    (location : Location) :
    Trace.hopOutcome view maxDepth importer room [] false (.names [⟨name, name⟩])
        ⟨file, 0, .forwarding package name location⟩
      = { chains := [Trace.chainFor view.display [file] false (.names [⟨name, name⟩])
            (.forwarding package name location)] } := by
  have hforward : (Flows.names [⟨name, name⟩]).forward (.forwarding package name location)
      = some (.names [⟨name, name⟩], false) := by
    simp [Flows.forward, ImportRecord.forwarding, Flows.namedHits, Flows.ofHits]
  have hrelative : (ImportRecord.forwarding package name location).isRelative = false := hpackage
  simp [Trace.hopOutcome, hforward, hrelative]

/-- **The import from the barrel has one chain**, which forwards the name. -/
theorem exists_chain (h : IsBarrel d direct barrel a b r bound specifier)
    (hvalue : r.typeOnly = false) {maxDepth : Nat} (hdepth : 1 ≤ maxDepth) :
    ∃ chain, (barrel.outcome d maxDepth (a.importing { r with specifier })
        { r with specifier }).chains = [chain] ∧
      chain.specifier = r.specifier ∧ chain.forwarded = [⟨bound.imported, bound.imported⟩] := by
  obtain ⟨target, hresolve, htarget⟩ := h.resolves
  obtain ⟨location, hforwards⟩ := h.forwards
  obtain ⟨room, rfl⟩ := Nat.exists_eq_add_of_le' hdepth
  have hnew : target.normalize ∉ [a.path.normalize] := by
    rw [htarget]
    simpa using h.other
  have hrequested : Flows.requestedBy { r with specifier }
      = .names [⟨bound.imported, bound.imported⟩] := by
    simp [Flows.requestedBy, h.names, h.notWhole]
  have houtcome : barrel.outcome d (room + 1) (a.importing { r with specifier })
        { r with specifier }
      = Id.run (Trace.visit (barrel.view d) (room + 1) a.path.normalize (room + 1) [] false
          (.names [⟨bound.imported, bound.imported⟩]) r.location target) := by
    rw [← hrequested]
    exact Trace.trace_eq_visit h.isRelative_specifier hvalue hresolve
  rw [houtcome, Trace.visit_succ_records _ _ _ _ _ _ _ _ _ hnew, htarget, h.imports_view,
    hforwards]
  show ∃ chain, (Trace.hopOutcome (barrel.view d) (room + 1) a.path.normalize room [] false _ _
    ++ {} : TraceOutcome).chains = [chain] ∧ _
  rw [hopOutcome_forwarding h.package.2]
  exact ⟨_, rfl, rfl, rfl⟩

/-- Through a chain that forwards a name unchanged, the name is used if it is invoked. -/
theorem used_ofChainBinding {chain : ReexportChain} {g : CallGraph} (hwhole : bound.isWhole = false)
    (hforwarded : chain.forwarded = [⟨bound.imported, bound.imported⟩]) :
    (Evidence.ofChainBinding chain g bound).used
      = if g.isInvoked bound.localName then [bound.imported] else [] := by
  have horigin : chain.originName? bound.imported = some bound.imported := by
    simp [ReexportChain.originName?, ReexportChain.forwardsEverything, hforwarded]
  have hname : bound.imported ≠ BoundName.wholeName := by
    simpa [BoundName.isWhole] using hwhole
  simp only [Evidence.ofChainBinding, hwhole, horigin, if_neg hname]
  cases g.isInvoked bound.localName with
  | true => rfl
  | false => cases g.isReferenced bound.localName <;> rfl

theorem matchesModule_package (h : IsBarrel d direct barrel a b r bound specifier) {c : Component}
    (hname : c.name = r.specifier) : c.matchesModule r.specifier = true := by
  rw [← hname]
  exact Component.matchesModule_name (hname ▸ h.package.1)

/-- Only a re-export names the package where there is a barrel. -/
theorem isReexport_of_names (h : IsBarrel d direct barrel a b r bound specifier) {c : Component}
    (hname : c.name = r.specifier) {file : ParsedFile} (hfile : file ∈ barrel.files)
    {i : ImportRecord} (hi : i ∈ file.imports) (hnames : Verdict.Names c i) :
    i.isReexport = true := by
  rcases h.mem_barrel.1 hfile with rfl | rfl
  · have hother : c.matchesModule specifier = false :=
      Component.matchesModule_of_isRelative h.isRelative_specifier (hname ▸ h.package.2)
    rw [List.mem_singleton.1 hi] at hnames
    rw [hnames.2] at hother
    cases hother
  · obtain ⟨location, hforwards⟩ := h.forwards
    rw [hforwards, List.mem_singleton] at hi
    rw [hi]
    rfl

/-- Only the import from the barrel is followed. -/
theorem mem_followed_iff (h : IsBarrel d direct barrel a b r bound specifier) {file : ParsedFile}
    (hfile : file ∈ barrel.files) {i : ImportRecord} :
    i ∈ file.followed ↔ file = a.importing { r with specifier } ∧ i = { r with specifier } ∧
      r.typeOnly = false ∧ r.isReexport = false := by
  rw [ParsedFile.followed, List.mem_filter]
  simp only [TraceIndex.isTraced, Bool.and_eq_true, Bool.not_eq_true']
  constructor
  · rintro ⟨hi, ⟨-, hvalue⟩, hreexport⟩
    rcases h.mem_barrel.1 hfile with rfl | rfl
    · obtain rfl := List.mem_singleton.1 hi
      exact ⟨rfl, rfl, hvalue, hreexport⟩
    · obtain ⟨location, hforwards⟩ := h.forwards
      rw [hforwards, List.mem_singleton] at hi
      subst hi
      cases hreexport
  · rintro ⟨rfl, rfl, hvalue, hreexport⟩
    exact ⟨List.mem_singleton.2 rfl, ⟨h.isRelative_specifier, hvalue⟩, hreexport⟩

/-- **Through the barrel**, the name is used if it is invoked, and nothing else. -/
theorem mem_used_barrel (h : IsBarrel d direct barrel a b r bound specifier) {maxDepth : Nat}
    (hdepth : 1 ≤ maxDepth) {c : Component} (hname : c.name = r.specifier) {member : String} :
    member ∈ (Verdict.evidence c barrel (TraceIndex.build d maxDepth barrel)).used ↔
      r.typeOnly = false ∧ r.isReexport = false ∧
        a.callGraph.isInvoked bound.localName = true ∧ member = bound.imported := by
  have hbound : bound ∈ r.names := by
    rw [h.names]
    exact List.mem_singleton.2 rfl
  rw [Verdict.mem_used_evidence]
  constructor
  · rintro (⟨file, hfile, i, hi, hnames, hreexport, -⟩ | ⟨file, hfile, i, hi, chain, hchain, hused⟩)
    · rw [h.isReexport_of_names hname hfile hi hnames] at hreexport
      cases hreexport
    · obtain ⟨rfl, rfl, hvalue, hreexport⟩ := (h.mem_followed_iff hfile).1 hi
      refine ⟨hvalue, hreexport, ?_⟩
      obtain ⟨only, honly, -, hforwarded⟩ := h.exists_chain hvalue hdepth
      rw [TraceOutcome.chainsTo, honly] at hchain
      obtain rfl := List.mem_singleton.1 (List.mem_filter.1 hchain).1
      obtain ⟨name, hname, hused⟩ := hused
      obtain rfl : name = bound := by simpa [h.names] using hname
      rw [used_ofChainBinding h.notWhole hforwarded] at hused
      split at hused
      · rename_i hinvoked
        exact ⟨hinvoked, List.mem_singleton.1 hused⟩
      · cases hused
  · rintro ⟨hvalue, hreexport, hinvoked, rfl⟩
    obtain ⟨chain, hchain, hspecifier, hforwarded⟩ := h.exists_chain hvalue hdepth
    have hfile := h.mem_barrel.2 (.inl rfl)
    have hto : chain ∈ (barrel.outcome d maxDepth (a.importing { r with specifier })
        { r with specifier }).chainsTo c := by
      rw [TraceOutcome.chainsTo, hchain]
      simp [hspecifier, h.matchesModule_package hname]
    refine .inr ⟨_, hfile, _, (h.mem_followed_iff hfile).2 ⟨rfl, rfl, hvalue, hreexport⟩, chain,
      hto, bound, hbound, ?_⟩
    rw [used_ofChainBinding h.notWhole hforwarded]
    show bound.imported ∈ if a.callGraph.isInvoked bound.localName then _ else _
    rw [if_pos hinvoked]
    exact List.mem_singleton.2 rfl

/-- **Directly**, what the binding uses is used. -/
theorem mem_used_direct (h : IsBarrel d direct barrel a b r bound specifier) (maxDepth : Nat)
    {c : Component} (hname : c.name = r.specifier) {member : String} :
    member ∈ (Verdict.evidence c direct (TraceIndex.build d maxDepth direct)).used ↔
      r.typeOnly = false ∧ r.isReexport = false ∧
        member ∈ (Evidence.ofBinding c a.callGraph r bound).used := by
  -- the package is outside the project, so nothing is followed
  have hfollowed : (a.importing r).followed = [] := by
    show [r].filter TraceIndex.isTraced = []
    simp [TraceIndex.isTraced, ImportRecord.isRelative, h.package.2]
  rw [Verdict.mem_used_evidence]
  constructor
  · rintro (⟨file, hfile, i, hi, hnames, hreexport, b, hb, hused⟩ | ⟨file, hfile, i, hi, -⟩)
    · rw [h.direct, List.mem_singleton] at hfile
      subst hfile
      obtain rfl := List.mem_singleton.1 hi
      rw [h.names, List.mem_singleton] at hb
      subst hb
      exact ⟨hnames.1, hreexport, hused⟩
    · rw [h.direct, List.mem_singleton] at hfile
      subst hfile
      rw [hfollowed] at hi
      cases hi
  · rintro ⟨hvalue, hreexport, hused⟩
    refine .inl ⟨a.importing r, ?_, r, List.mem_singleton.2 rfl,
      ⟨hvalue, h.matchesModule_package hname⟩, hreexport, bound, ?_, hused⟩
    · rw [h.direct]
      exact List.mem_singleton.2 rfl
    · rw [h.names]
      exact List.mem_singleton.2 rfl

/-- A binding of a name that the package exports under its own specifier. -/
theorem used_ofBinding {c : Component} {g : CallGraph} (hname : c.name = r.specifier)
    (hwhole : bound.isWhole = false) :
    (Evidence.ofBinding c g r bound).used =
      if bound.isDefault then
        (if g.isCalled bound.localName then [bound.imported] else [])
          ++ g.calledMembers bound.localName
      else if g.isInvoked bound.localName then [bound.imported] else [] := by
  rw [Evidence.ofBinding, BoundName.isWholeModule, hwhole, Bool.false_or]
  cases hdefault : bound.isDefault with
  | true =>
    have hself : Evidence.moduleCallName c r bound = bound.imported := by
      have hrest : c.rest? r.specifier = some [] := by
        rw [← hname]
        exact after?_self _
      simp only [BoundName.isDefault, beq_iff_eq] at hdefault
      simp [Evidence.moduleCallName, hrest, hwhole, hdefault]
    rw [if_pos rfl, Evidence.used_ofWholeModule, hself, if_pos rfl]
  | false => rw [if_neg Bool.false_ne_true, Evidence.used_ofNamed, if_neg Bool.false_ne_true]

/-- What is used of an invoked name is what is used of it and its members exactly when no
other member is called. -/
theorem forall_mem_used_iff (g : CallGraph) (localName name : String) :
    (∀ member, g.isInvoked localName = true ∧ member = name ↔
        member ∈ (if g.isCalled localName then [name] else []) ++ g.calledMembers localName) ↔
      ∀ member ∈ g.calledMembers localName, member = name := by
  constructor
  · intro h member hmember
    exact ((h member).2 (List.mem_append_right _ hmember)).2
  · intro h member
    rw [CallGraph.isInvoked, Bool.or_eq_true, Bool.not_eq_true', List.mem_append,
      List.isEmpty_eq_false_iff_exists_mem]
    constructor
    · rintro ⟨hcalled | ⟨other, hother⟩, rfl⟩
      · exact .inl (by simp [hcalled])
      · exact .inr (h other hother ▸ hother)
    · rintro (hmember | hmember)
      · split at hmember
        · rename_i hcalled
          exact ⟨.inl hcalled, List.mem_singleton.1 hmember⟩
        · cases hmember
      · exact ⟨.inr ⟨member, hmember⟩, h member hmember⟩

end IsBarrel

namespace Verdict

/-- **When a barrel is transparent.**  A package has the same used members and the same
affected functions, whichever are affected, through a barrel as directly, exactly when
the import is of types only or a re-export, or the name is not `default`, or no member
but `default` is called through it. -/
theorem usage_barrel_iff (d : Disk) (o : Options) (direct barrel : Project) (a b : ParsedFile)
    (r : ImportRecord) (bound : BoundName) (specifier : String) (c : Component)
    (hbarrel : IsBarrel d direct barrel a b r bound specifier) (hdepth : 1 ≤ o.maxReexportDepth)
    (hname : c.name = r.specifier) :
    ((classify barrel (Analysis.traces d o barrel) c).usage.usedMembers
          = (classify direct (Analysis.traces d o direct) c).usage.usedMembers ∧
        (classify barrel (Analysis.traces d o barrel) c).usage.vulnerableFunctionsCalled
          = (classify direct (Analysis.traces d o direct) c).usage.vulnerableFunctionsCalled) ↔
      r.typeOnly = true ∨ r.isReexport = true ∨ bound.isDefault = false ∨
        ∀ member ∈ a.callGraph.calledMembers bound.localName, member = bound.imported := by
  have hdirect : direct.files ≠ [] := by simp [hbarrel.direct]
  have hfiles : barrel.files ≠ [] := by
    intro hnil
    have hb := hbarrel.mem_barrel.2 (.inr rfl)
    rw [hnil] at hb
    cases hb
  rw [usage_eq_iff hdirect hfiles]
  unfold Analysis.traces
  simp only [hbarrel.mem_used_barrel hdepth hname, hbarrel.mem_used_direct _ hname,
    IsBarrel.used_ofBinding hname hbarrel.notWhole]
  cases r.typeOnly with
  | true => simp
  | false =>
    cases r.isReexport with
    | true => simp
    | false =>
      cases bound.isDefault with
      | true => simpa using IsBarrel.forall_mem_used_iff _ _ _
      | false => cases a.callGraph.isInvoked bound.localName <;> simp

/-- A disk with the files `/a.ts` and `/b.ts`. -/
def twoFiles : Disk :=
  ⟨.dir [("a.ts", .file (.text "")), ("b.ts", .file (.text ""))], [], none, none⟩

/-- The file `/a.ts`, which imports a name of `lodash` or of `./b`, and calls something. -/
def caller (specifier : String) (bound : BoundName) (called : List String) : ParsedFile :=
  ⟨⟨"/a.ts"⟩, ⟨"a.ts"⟩, [⟨specifier, .named, [bound], false, ⟨⟨"a.ts"⟩, 1, 1, ""⟩⟩],
    { calledNames := NameSet.ofList called }⟩

/-- The file `/b.ts`, which forwards a name of `lodash`. -/
def forwarder (name : String) : ParsedFile :=
  ⟨⟨"/b.ts"⟩, ⟨"b.ts"⟩, [.forwarding "lodash" name ⟨⟨"b.ts"⟩, 1, 1, ""⟩], {}⟩

/-- The hypotheses are satisfiable: `import { fp } from 'lodash'; fp.map(xs);` and the same
from a barrel. -/
theorem usage_barrel_iff_named :
    let bound : BoundName := ⟨"fp", "fp"⟩
    let a := caller "lodash" bound ["fp.map", "map"]
    let direct : Project := ⟨⟨"/"⟩, [a], [], 1, true⟩
    let barrel : Project :=
      ⟨⟨"/"⟩, [caller "./b" bound ["fp.map", "map"], forwarder "fp"], [], 2, true⟩
    let c : Component := { name := "lodash", vulnerabilities := [⟨"id", none, ["fp"]⟩] }
    ∃ r, IsBarrel twoFiles direct barrel a (forwarder "fp") r bound "./b" ∧ c.name = r.specifier ∧
      bound.isDefault = false ∧
      let found := (classify direct (Analysis.traces twoFiles {} direct) c).usage
      let foundThrough := (classify barrel (Analysis.traces twoFiles {} barrel) c).usage
      foundThrough.usedMembers = found.usedMembers ∧
        foundThrough.vulnerableFunctionsCalled = found.vulnerableFunctionsCalled := by
  intro bound a direct barrel c
  have hbarrel : IsBarrel twoFiles direct barrel a (forwarder "fp")
      ⟨"lodash", .named, [bound], false, ⟨⟨"a.ts"⟩, 1, 1, ""⟩⟩ bound "./b" :=
    { package := by decide
      names := rfl
      notWhole := by decide
      direct := rfl
      barrel := .refl _
      forwards := ⟨_, rfl⟩
      resolves := ⟨⟨"/b.ts"⟩, by decide +kernel, rfl⟩
      other := by decide }
  exact ⟨_, hbarrel, rfl, by decide,
    (usage_barrel_iff twoFiles {} direct barrel a (forwarder "fp") _ bound "./b" c hbarrel
      (by decide) rfl).2 (.inr (.inr (.inl (by decide))))⟩

/-- **The members of a default are lost in a barrel.**  Of `import d from 'lodash'` and
`d.template(x)` the affected function `template` is found; if the default comes from a file
that says `export { default } from 'lodash'`, it is not. -/
theorem usage_barrel_default_differs :
    let bound : BoundName := ⟨"default", "d"⟩
    let called := ["d.template", "template"]
    let direct : Project := ⟨⟨"/"⟩, [caller "lodash" bound called], [], 1, true⟩
    let barrel : Project :=
      ⟨⟨"/"⟩, [caller "./b" bound called, forwarder "default"], [], 2, true⟩
    let c : Component := { name := "lodash", vulnerabilities := [⟨"id", none, ["template"]⟩] }
    let found := (classify direct (Analysis.traces twoFiles {} direct) c).usage
    let foundThrough := (classify barrel (Analysis.traces twoFiles {} barrel) c).usage
    found.usedMembers = ["template"] ∧ found.vulnerableFunctionsCalled = ["template"] ∧
      foundThrough.usedMembers = ["default"] ∧ foundThrough.vulnerableFunctionsCalled = [] := by
  decide +kernel

end Verdict
end DependencyUse
