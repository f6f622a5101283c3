import Backwire.Proofs.Package.Regularity
import Backwire.Proofs.Package.Resolution

/-!
# Rules are enforced

The rules of a schema are checked where they can be: repeats and tags of the files when they are
drafted, and the rest when types have been resolved. `SchemaRules` says them all of the files of a
package as they were parsed, and of its structs as they were resolved.

A package whose files can be parsed, whose imports lead to packages and whose references stand for
something is compiled exactly if it keeps to the rules (`compiles_iff`); if not, the error names a
fault that is there (`violation_of_fails`), in a file, a definition and a member of it.

If the session has a package of the ID that is asked for, the call yields that package and does not
look at the files: neither whether they have changed, nor whether they stand in another directory
than those that were compiled under the ID. What it yields keeps to the rules, as everything does
that has been compiled (`Session.Reachable.lawful`).
-/

namespace Backwire.Schema

variable {τ σ ρ ι κ μ : Type}

theorem Body.map_map (leaf : τ → σ) (tag : ι → κ) (leaf' : σ → ρ) (tag' : κ → μ) (b : Body τ ι) :
    (b.map leaf tag).map leaf' tag' = b.map (leaf' ∘ leaf) (tag' ∘ tag) := by
  have hparameters (ps : List (Parameter τ)) :
      (ps.map (Parameter.map leaf)).map (Parameter.map leaf')
        = ps.map (Parameter.map (leaf' ∘ leaf)) :=
    List.map_map
  cases b with
  | enum => rfl
  | message fields => exact congrArg message List.map_map
  | struct fields => exact congrArg struct (hparameters fields)
  | service methods =>
    refine congrArg service (List.map_map.trans (List.map_congr_left fun m _ => ?_))
    exact congrArg₂ (Method.mk m.name) (hparameters m.args) (hparameters m.results)

end Backwire.Schema

namespace Backwire.Package

open Schema
open Wire (bind_eq_ok_iff bind_eq_error_iff)

variable {e : Surroundings} {s s₁ s' : Session} {directory : Path} {package : String}
  {from? : Option Location} {p : Linked} {c : Compiled} {parsed : List (Source × SchemaFile)}
  {err : CompileError} {i : Nat}

/-! ### Definitions and the files that declare them -/

section Declaring

theorem mem_numbered {k : Nat} {d : Definition} :
    (k, d) ∈ numbered 0 parsed ↔
      ∃ source schema, parsed[k]? = some (source, schema) ∧ d ∈ schema.definitions := by
  simp only [numbered, List.mem_flatMap, List.mem_map, Prod.exists, List.mem_zipIdx_iff_getElem?,
    Prod.mk.injEq]
  constructor
  · rintro ⟨source, schema, j, hx, d', hd', rfl, rfl⟩
    exact ⟨source, schema, hx, hd'⟩
  · rintro ⟨source, schema, hx, hd⟩
    exact ⟨source, schema, k, hx, d, hd, rfl, rfl⟩

/-- **A definition of a compiled package is one of a file**, with its place and its body. -/
structure DeclaredIn (package : String) (c : Compiled) (d : Declared TypeUse) (source : Source)
    (declared : Definition) : Prop where
  name : d.name = declared.name
  place : c.locate d = (Location.ofFile package source.name).definition declared.name
  body : (d.map TypeUse.written).body.numbered tagNumber = declared.body.numbered Int64.toInt

variable {d : Declared TypeUse} {source : Source} {schema : SchemaFile} {declared : Definition}

namespace DeclaredIn

/-- A definition is regular if it is so in its file. -/
theorem regular_iff (h : DeclaredIn package c d source declared) :
    d.body.Regular ↔ declared.body.Regular := by
  have htoInt : Function.Injective Int64.toInt := fun a b => Int64.toInt_inj.1
  have hwritten : (d.map TypeUse.written).body.Regular ↔ d.body.Regular :=
    Body.regular_map TypeUse.written Function.injective_id d.body
  have hdrafted := Body.regular_map id tagNumber_injective (d.map TypeUse.written).body
  have hdeclared := Body.regular_map id htoInt declared.body
  change ((d.map TypeUse.written).body.numbered tagNumber).Regular ↔ _ at hdrafted
  rw [h.body] at hdrafted
  exact hwritten.symm.trans (hdrafted.symm.trans hdeclared)

/-- A fault of a definition is one of the definition in its file. -/
theorem irregular (h : DeclaredIn package c d source declared)
    (hfault : Irregular (c.locate d) (d.body.numbered tagNumber) err) :
    Irregular ((Location.ofFile package source.name).definition declared.name)
      (declared.body.numbered Int64.toInt) err := by
  rw [← h.place, ← h.body]
  have hsame : (d.map TypeUse.written).body.numbered tagNumber =
      (d.body.numbered tagNumber).map TypeUse.written id :=
    (Body.map_map TypeUse.written id id tagNumber d.body).trans
      (Body.map_map id tagNumber TypeUse.written id d.body).symm
  rw [hsame]
  exact hfault.map TypeUse.written

end DeclaredIn

/-- The definitions of a package are those of its files, one by one. -/
theorem Linking.declaredIn (hlinking : Linking e s directory package p s₁)
    (hparsed : ParsedFiles e.tree directory parsed) (hc : c.map TypeUse.written = p) :
    (∀ d ∈ c.definitions, ∃ source schema declared, (source, schema) ∈ parsed ∧
        declared ∈ schema.definitions ∧ DeclaredIn package c d source declared) ∧
      ∀ source schema declared, (source, schema) ∈ parsed → declared ∈ schema.definitions →
        ∃ d ∈ c.definitions, DeclaredIn package c d source declared := by
  subst hc
  obtain ⟨hid, -, hfiles⟩ := hparsed.draft_eq_ok_iff.1 hlinking.drafted
  have hnames : c.files.map File.name = parsed.map fun x => x.1.name := by
    have hunlinked : (c.files.map File.unlinked).map File.name = c.files.map File.name :=
      List.map_map
    rw [← hunlinked]
    exact map_eq_map_of_forall₂ ((draftFiles_ok hfiles).flip.imp fun _ _ h => h.1)
  have hall : List.Forall₂ (fun x d => DeclaredFrom x (d.map TypeUse.written))
      (numbered 0 parsed) c.definitions :=
    List.forall₂_map_right_iff.1 (draftFiles_declared hfiles)
  have hdeclared {k : Nat} {source : Source} {schema : SchemaFile} {declared : Definition}
      {d : Declared TypeUse} (hx : parsed[k]? = some (source, schema))
      (hfrom : DeclaredFrom (k, declared) (d.map TypeUse.written)) :
      DeclaredIn package c d source declared := by
    obtain ⟨hname, hfile, hbody⟩ := hfrom
    refine ⟨hname, ?_, hbody⟩
    have hsource : c.files[d.file]?.map File.name = some source.name := by
      change d.file = k at hfile
      rw [← List.getElem?_map, hnames, List.getElem?_map, hfile, hx]
      rfl
    change d.name = declared.name at hname
    change c.id = package at hid
    rw [PackageOf.locate, hsource, hname, hid]
    rfl
  constructor
  · intro d hd
    obtain ⟨⟨k, declared⟩, hx, hfrom⟩ := exists_of_forall₂ hall hd
    obtain ⟨source, schema, hx, hdecl⟩ := mem_numbered.1 hx
    exact ⟨source, schema, declared, List.mem_of_getElem? hx, hdecl, hdeclared hx hfrom⟩
  · intro source schema declared hx hdecl
    obtain ⟨k, hk⟩ := List.mem_iff_getElem?.1 hx
    obtain ⟨d, hd, hfrom⟩ :=
      exists_of_forall₂ hall.flip (mem_numbered.2 ⟨source, schema, hk, hdecl⟩)
    exact ⟨d, hd, hdeclared hk hfrom⟩

end Declaring

/-! ### One package -/

/-- **A new package has been finished** as `c`, with its imports followed and its types resolved,
and the session is `s'` then. It has not been checked yet. -/
def Resolving (e : Surroundings) (s : Session) (directory : Path) (package : String) (c : Compiled)
    (s' : Session) : Prop :=
  ∃ p s₁, Linking e s directory package p s₁ ∧ resolveTypes s₁ s.entries.length p = .ok c ∧
    s' = s₁.finish s.entries.length c

/-- **The rules of a schema**, of the files of a package as they were parsed and of its structs as
they were resolved. -/
structure SchemaRules (e : Surroundings) (s : Session) (directory : Path) (package : String)
    (parsed : List (Source × SchemaFile)) : Prop where
  draft : DraftRules parsed
  regular : ∀ x ∈ parsed, ∀ declared ∈ x.2.definitions, declared.body.Regular
  structs : ∀ c s', Resolving e s directory package c s' → s'.StructsFit s.entries.length c

/-- **What an error names that breaks a rule.** -/
inductive Violation (e : Surroundings) (s : Session) (directory : Path) (package : String)
    (parsed : List (Source × SchemaFile)) : CompileError → Prop where
  /-- A repeat in a file or in the package, or a tag that does not fit. -/
  | draft {err : CompileError} (h : DraftFault package parsed err) :
      Violation e s directory package parsed err
  /-- A repeat in a definition, or an enum without a zero. -/
  | body {source : Source} {schema : SchemaFile} {declared : Definition} {err : CompileError}
      (hfile : (source, schema) ∈ parsed) (hdeclared : declared ∈ schema.definitions)
      (h : Irregular ((Location.ofFile package source.name).definition declared.name)
        (declared.body.numbered Int64.toInt) err) : Violation e s directory package parsed err
  /-- A field of a struct of a type that does not fit. -/
  | field {source : Source} {schema : SchemaFile} {declared : Definition} {c : Compiled}
      {s' : Session} {i : Nat} {d : Declared TypeUse} {fields : List (Parameter TypeUse)}
      {f : Parameter TypeUse} {fault : StructFault} (hfile : (source, schema) ∈ parsed)
      (hdeclared : declared ∈ schema.definitions) (hc : Resolving e s directory package c s')
      (hd : c.definitions[i]? = some d) (hin : DeclaredIn package c d source declared)
      (hbody : d.body = .struct fields) (hf : f ∈ fields)
      (h : FieldFault s' ⟨s.entries.length, i⟩ d.name f.type fault) :
      Violation e s directory package parsed (.invalidStructField
        (((Location.ofFile package source.name).definition declared.name).member f.name) fault)

theorem Linking.unique {q : Linked} {s₂ : Session} (h : Linking e s directory package p s₁)
    (h' : Linking e s directory package q s₂) : p = q ∧ s₁ = s₂ := by
  have hunlinked : p.unlinked = q.unlinked := Except.ok.inj (h.drafted.symm.trans h'.drafted)
  have hfollowed := h'.followed
  rw [← hunlinked] at hfollowed
  obtain ⟨htargets, hsession⟩ := h.followed.unique hfollowed
  exact ⟨PackageOf.eq_of_unlinked hunlinked htargets, hsession⟩

theorem Resolving.unique {c' : Compiled} {s'' : Session} (h : Resolving e s directory package c s')
    (h' : Resolving e s directory package c' s'') : c = c' ∧ s' = s'' := by
  obtain ⟨p, s₁, hlinking, hc, rfl⟩ := h
  obtain ⟨q, s₂, hlinking', hc', rfl⟩ := h'
  obtain ⟨rfl, rfl⟩ := hlinking.unique hlinking'
  cases hc.symm.trans hc'
  exact ⟨rfl, rfl⟩

namespace Resolving

/-- The package stands in the session. -/
theorem package? (h : Resolving e s directory package c s') :
    s'.package? s.entries.length = some c := by
  obtain ⟨p, s₁, hlinking, -, rfl⟩ := h
  have hlt := (List.getElem?_eq_some_iff.1 hlinking.followed.started).1
  rw [Session.package?_finish hlt, if_pos rfl]

/-- What the check of a resolved package decides, in terms of its files. -/
theorem decides (h : Resolving e s directory package c s')
    (hparsed : ParsedFiles e.tree directory parsed) :
    Decides (checkRules s' s.entries.length c) (SchemaRules e s directory package parsed)
      (Violation e s directory package parsed) := by
  obtain ⟨p, s₁, hlinking, hc, -⟩ := id h
  obtain ⟨hdefinitions, hfiles⟩ := hlinking.declaredIn hparsed (resolveTypes_ok hc).1
  obtain ⟨-, -, hdraft⟩ := hparsed.draft_eq_ok_iff.1 hlinking.drafted
  obtain ⟨hrules, -⟩ := (exists_draftFiles_iff ..).1 ⟨_, hdraft⟩
  refine (checkRules_decides h.package?).mono ?_ fun err hfault => ?_
  · constructor
    · rintro ⟨hregular, hfit⟩
      refine ⟨hrules, fun x hx declared hdeclared => ?_, fun c' s'' h' => ?_⟩
      · obtain ⟨d, hd, hin⟩ := hfiles x.1 x.2 declared hx hdeclared
        exact hin.regular_iff.1 (hregular d hd)
      · obtain ⟨rfl, rfl⟩ := h.unique h'
        exact hfit
    · intro hrules
      refine ⟨fun d hd => ?_, hrules.structs c s' h⟩
      obtain ⟨source, schema, declared, hx, hdeclared, hin⟩ := hdefinitions d hd
      exact hin.regular_iff.2 (hrules.regular _ hx declared hdeclared)
  · cases hfault with
    | body hd hirregular =>
      obtain ⟨source, schema, declared, hx, hdeclared, hin⟩ := hdefinitions _ hd
      exact .body hx hdeclared (hin.irregular hirregular)
    | field hd hbody hf hfault =>
      obtain ⟨source, schema, declared, hx, hdeclared, hin⟩ :=
        hdefinitions _ (List.mem_of_getElem? hd)
      rw [hin.place]
      exact .field hx hdeclared h hd hin hbody hf hfault

end Resolving

section Enforcing

variable (hnew : s.indexOf? package = none) (hparsed : ParsedFiles e.tree directory parsed)
  (hresolve : ∀ d, draft e.tree directory package = .ok d →
    ∃ c s', Resolving e s directory package c s')
include hnew hparsed hresolve

/-- **A package is compiled if it keeps to the rules**, and only then. -/
theorem compiles_iff :
    (∃ ns s', Compiles e s (.package directory package from?) ns s') ↔
      SchemaRules e s directory package parsed := by
  constructor
  · rintro ⟨ns, s', h⟩
    cases h with
    | known h => exact absurd h (by rw [Session.finished?_eq_none hnew]; nofun)
    | fresh _ hdraft himports hlinks hconclude =>
      subst hlinks
      obtain ⟨c, hc, rfl, hrules⟩ := conclude_ok hconclude
      have h : Resolving e s directory package c _ := ⟨_, _, ⟨hnew, hdraft, himports⟩, hc, rfl⟩
      exact (h.decides hparsed).ok.1 hrules
  · intro hrules
    obtain ⟨⟨files, definitions⟩, hfiles⟩ :=
      (exists_draftFiles_iff 0 []).2 ⟨hrules.draft, fun _ _ => List.not_mem_nil⟩
    have hdraft : draft e.tree directory package = .ok ⟨package, directory, files, definitions⟩ :=
      hparsed.draft_eq_ok_iff.2 ⟨rfl, rfl, hfiles⟩
    obtain ⟨c, s', h⟩ := hresolve _ hdraft
    obtain ⟨p, s₁, hlinking, hc, hs'⟩ := id h
    have hchecked := (h.decides hparsed).ok.2 hrules
    refine ⟨_, s', .fresh hnew hlinking.drafted hlinking.followed rfl ?_⟩
    rw [conclude_eq, hc]
    dsimp only
    rw [← hs', hchecked]

/-- **An error of a package names what breaks a rule.** -/
theorem violation_of_fails (h : Fails e s (.package directory package from?) err s') :
    Violation e s directory package parsed err := by
  cases h with
  | loop hknown => exact absurd hknown (by rw [hnew]; nofun)
  | drafting _ hdraft =>
    rw [hparsed.draft_eq] at hdraft
    rcases bind_eq_error_iff.1 hdraft with hdraft | ⟨_, -, hdraft⟩
    · exact .draft (draftFiles_error [] hdraft nofun)
    · cases hdraft
  | imports _ hdraft himports =>
    obtain ⟨c, s', p, s₁, hlinking, -⟩ := hresolve _ hdraft
    cases hdraft.symm.trans hlinking.drafted
    exact absurd himports hlinking.followed.not_fails
  | conclusion _ hdraft himports hlinks hconclude =>
    subst hlinks
    obtain ⟨c, s', h⟩ := hresolve _ hdraft
    obtain ⟨q, s₂, hlinking, hc, hs'⟩ := id h
    obtain ⟨rfl, rfl⟩ := hlinking.unique ⟨hnew, hdraft, himports⟩
    rw [conclude_eq, hc] at hconclude
    dsimp only at hconclude
    rw [← hs'] at hconclude
    split at hconclude
    · next herr =>
      cases hconclude
      exact (h.decides hparsed).error _ herr
    · cases hconclude

end Enforcing

/-- **Imports lead to packages, and references stand for something.** -/
def Resolvable (e : Surroundings) (s : Session) (directory : Path) (package : String) : Prop :=
  ∀ d, draft e.tree directory package = .ok d → ∃ p s₁, Linking e s directory package p s₁ ∧
    ∀ o ∈ p.occurrences, ∀ r, ¬ s₁.Unnamed s.entries.length p o r

theorem Resolvable.resolving (h : Resolvable e s directory package) (hs : s.Resolved) {d : Draft}
    (hd : draft e.tree directory package = .ok d) :
    ∃ c s', Resolving e s directory package c s' := by
  obtain ⟨p, s₁, hlinking, hnamed⟩ := h d hd
  have hs₁ := (hlinking.followed.resolved (hs.start _)).unambiguous
  obtain ⟨c, hc⟩ := (exists_resolveTypes_iff hs₁ hlinking.unambiguous).2 hnamed
  exact ⟨c, _, p, s₁, hlinking, hc, rfl⟩

/-! ### What has been compiled -/

section Lasting

variable {a b : DefinitionId} {ns : List Nat} {task : Task}

/-- **Every finished package keeps to the rules.** -/
def Session.Lawful (s : Session) : Prop :=
  ∀ i c, s.package? i = some c → (∀ d ∈ c.definitions, d.body.Regular) ∧ s.StructsFit i c

/-- What a struct holds is declared as a struct. -/
theorem Session.Holds.struct (h : s.Holds a b) (hs : s.Resolved) :
    ∃ d fields, s.definition? b = some d ∧ d.body = .struct fields := by
  obtain ⟨d, fields, hd, hbody, f, hf, hb⟩ := h
  obtain ⟨c, hc, hd⟩ := Option.bind_eq_some_iff.1 hd
  obtain ⟨r, link?, htype⟩ := structOf?_eq_some_iff.1 hb
  have hoccurrence : ⟨d, f.name, f.type⟩ ∈ c.occurrences := by
    refine List.mem_flatMap.2 ⟨d, List.mem_of_getElem? hd, ?_⟩
    refine List.mem_map.2 ⟨(f.name, f.type), ?_, rfl⟩
    rw [hbody]
    exact List.mem_map_of_mem hf
  have hname := hs.records _ c hc _ hoccurrence r ⟨.struct, b, link?⟩ (by rw [htype])
  obtain ⟨⟨name, file, body⟩, hdeclared, hkind⟩ := hname.definition? hc
  cases body with
  | struct inner => exact ⟨_, inner, hdeclared, rfl⟩
  | enum | message | service => cases hkind

/-- It stands in a finished package. -/
theorem Session.Holds.package? (h : s.Holds a b) (hs : s.Resolved) :
    ∃ c, s.package? b.package = some c := by
  obtain ⟨d, -, hd, -⟩ := h.struct hs
  obtain ⟨c, hc, -⟩ := Option.bind_eq_some_iff.1 hd
  exact ⟨c, hc⟩

/-- What a struct of a finished package holds does not change while packages are added. -/
theorem Session.Holds.of_later (h : s'.Holds a b) (hc : s.package? a.package = some c)
    (hs : ∀ i c, s.package? i = some c → s'.package? i = some c) : s.Holds a b := by
  obtain ⟨d, fields, hd, hrest⟩ := h
  refine ⟨d, fields, ?_, hrest⟩
  rw [definition?, hs _ c hc] at hd
  rwa [definition?, hc]

/-- Nor does what it holds in the structs that it holds. -/
theorem Session.transGen_holds (hs : s.Resolved)
    (hlater : ∀ i c, s.package? i = some c → s'.package? i = some c)
    (hc : s.package? a.package = some c) (h : Relation.TransGen s'.Holds a b) :
    Relation.TransGen s.Holds a b ∧ ∃ c, s.package? b.package = some c := by
  induction h with
  | single h =>
    have h := h.of_later hc hlater
    exact ⟨.single h, h.package? hs⟩
  | tail _ h ih =>
    obtain ⟨hway, c, hc⟩ := ih
    have h := h.of_later hc hlater
    exact ⟨.tail hway h, h.package? hs⟩

theorem Session.StructsFit.later (h : s.StructsFit i c) (hs : s.Resolved)
    (hlater : ∀ i c, s.package? i = some c → s'.package? i = some c)
    (hc : s.package? i = some c) : s'.StructsFit i c := by
  intro j d fields hd hbody
  obtain ⟨hfixed, hloop⟩ := h j d fields hd hbody
  exact ⟨hfixed, fun hback => hloop (Session.transGen_holds hs hlater hc hback).1⟩

/-- **What is compiled keeps to the rules**, and what has been compiled goes on to. -/
theorem Compiles.lawful (h : Compiles e s task ns s') (hr : s.Resolved) (hs : s.Lawful) :
    s'.Lawful := by
  induction h with
  | known => exact hs
  | @fresh s s₁ s' directory package from? d p hnew hdraft himports hlinks hconclude ih =>
    have hstart : (s.start d).Lawful := fun i c hc => by
      rw [Session.package?_start] at hc
      obtain ⟨hregular, hfit⟩ := hs i c hc
      exact ⟨hregular, hfit.later hr (fun i c hc => (s.package?_start d i).trans hc) hc⟩
    have hr₁ := himports.resolved (hr.start d)
    have hs₁ := ih (hr.start d) hstart
    obtain ⟨c, -, rfl, hrules⟩ := conclude_ok hconclude
    have hstarted := himports.started
    have hlt := (List.getElem?_eq_some_iff.1 hstarted).1
    intro i q hq
    rw [Session.package?_finish hlt] at hq
    split at hq
    · next hi =>
      cases hq
      subst hi
      refine (checkRules_decides ?_).ok.1 hrules
      rw [Session.package?_finish hlt, if_pos rfl]
    · obtain ⟨hregular, hfit⟩ := hs₁ i q hq
      exact ⟨hregular, hfit.later hr₁ (fun i c => Session.package?_finish_of_some hstarted) hq⟩
  | done => exact hs
  | next _ hpackage _ ihPackage ihRest =>
    exact ihRest (hpackage.resolved hr) (ihPackage hr hs)

theorem Session.Reachable.lawful (h : s.Reachable) : s.Lawful :=
  h.keeps nofun fun hs hcompiles => hcompiles.lawful hs.resolved

end Lasting

/-! ### Calls -/

/-- A package is compiled or it fails. -/
theorem compiles_or_fails (e : Surroundings) (s : Session) (directory : Path) (package : String)
    (from? : Option Location) :
    (∃ n s', Compiles e s (.package directory package from?) [n] s') ∨
      ∃ err s', Fails e s (.package directory package from?) err s' := by
  have hleads : Leads e s (.package directory package from?) (fun n => [n])
      (visit e (importIds e.tree) directory package from? s) := visit_leads fun w hw => .inl hw
  cases hvisit : visit e (importIds e.tree) directory package from? s with
  | ok n s' =>
    rw [hvisit] at hleads
    exact .inl ⟨n, s', hleads⟩
  | error err s' =>
    rw [hvisit] at hleads
    exact .inr ⟨err, s', hleads⟩

/-! ### A sample -/

/-- A file of a struct that contains itself. -/
def Surroundings.namedLoop : Surroundings := .named "struct S { s S; }"

/-- The package `c` with this file, and the type of its field. -/
def PackageOf.namedLoop {κ τ : Type} (type : τ) : PackageOf κ τ :=
  ⟨"c", .ofNames ["w", "c"], [⟨"m.spec", .ofNames ["w", "c", "m.spec"], [], []⟩],
    [⟨"S", 0, .struct [⟨"s", ⟨0, type⟩⟩]⟩]⟩

/-- The package `c` with this file and its types resolved. -/
def PackageOf.namedLoopResolved : Compiled :=
  .namedLoop (.named ⟨none, "S"⟩ ⟨.struct, ⟨0, 0⟩, none⟩)

/-- The file of the package `c` that keeps to the rules, as it was read and parsed. -/
def namedRightFiles : List (Source × SchemaFile) :=
  [(⟨"m.spec", .ofNames ["w", "c", "m.spec"], "import \"x\" message A { a []A 1; b x.B 2; }"⟩,
    namedFile "B")]

/-- The file of the package `c` with the struct that contains itself. -/
def namedLoopFiles : List (Source × SchemaFile) :=
  [(⟨"m.spec", .ofNames ["w", "c", "m.spec"], "struct S { s S; }"⟩,
    ⟨[], [], [⟨"S", .struct [⟨"s", ⟨0, .named ⟨none, "S"⟩⟩⟩]⟩]⟩)]

theorem parsedFiles_namedRight :
    ParsedFiles Surroundings.namedRight.tree (.ofNames ["w", "c"]) namedRightFiles :=
  parsedFiles_of_single _ rfl rfl rfl rfl
    (by cbv : parse "import \"x\" message A { a []A 1; b x.B 2; }" = .ok (namedFile "B"))

theorem parsedFiles_namedLoop :
    ParsedFiles Surroundings.namedLoop.tree (.ofNames ["w", "c"]) namedLoopFiles :=
  parsedFiles_of_single _ rfl rfl rfl rfl (by cbv)

theorem linking_namedRight : Linking .namedRight .empty (.ofNames ["w", "c"]) "c"
    (.namedWritten 1 "B") (.namedLinked "B") :=
  ⟨rfl, draft_namedRight, compiles_named _ _⟩

theorem linking_namedLoop : Linking .namedLoop .empty (.ofNames ["w", "c"]) "c"
    (.namedLoop (.named ⟨none, "S"⟩)) (Session.empty.start (.namedLoop (.named ⟨none, "S"⟩))) :=
  ⟨rfl, parsedFiles_namedLoop.draft_eq_ok_iff.2 ⟨rfl, rfl, by cbv⟩, .done⟩

/-- Imports lead somewhere and references stand for something if types can be resolved. -/
theorem Linking.resolvable (h : Linking e s directory package p s₁) (hs : s.Resolved)
    (hc : resolveTypes s₁ s.entries.length p = .ok c) : Resolvable e s directory package := by
  intro d hd
  have hs₁ := (h.followed.resolved (hs.start _)).unambiguous
  exact ⟨p, s₁, h, (exists_resolveTypes_iff hs₁ h.unambiguous).1 ⟨c, hc⟩⟩

/-- What is wrong with that file. -/
def CompileError.namedLoop : CompileError :=
  .invalidStructField ⟨"c", "m.spec", some "S", some "s"⟩ (.containsItself "S")

theorem resolveTypes_namedLoop :
    resolveTypes (Session.empty.start (.namedLoop (.named ⟨none, "S"⟩))) 0
      (.namedLoop (.named ⟨none, "S"⟩)) = .ok .namedLoopResolved := rfl

theorem not_schemaRules_namedLoop {parsed : List (Source × SchemaFile)} :
    ¬ SchemaRules .namedLoop .empty (.ofNames ["w", "c"]) "c" parsed := by
  intro h
  obtain ⟨-, hloop⟩ := h.structs .namedLoopResolved _
    ⟨_, _, linking_namedLoop, resolveTypes_namedLoop, rfl⟩ 0 _ _ rfl rfl
  exact hloop (.single ⟨_, _, rfl, rfl, _, List.mem_cons_self, rfl⟩)

theorem attempt_namedLoop :
    Session.empty.attempt .namedLoop (.ofText "c") = (.error .namedLoop, .empty) := by
  have hfails : Fails .namedLoop .empty (Surroundings.namedLoop.call (.ofText "c")) .namedLoop
      ((Session.empty.start (.namedLoop (.named ⟨none, "S"⟩))).finish 0 .namedLoopResolved) := by
    refine call_named _ ▸
      .conclusion rfl linking_namedLoop.drafted linking_namedLoop.followed rfl ?_
    cbv
  exact hfails.attempt .empty

/-- **Rules are enforced exactly.** If the session has the package that a call asks for, the call
yields it, and it keeps to the rules. Otherwise, if the files of the package can be parsed, its
imports lead to packages and its references stand for something, the call succeeds if the files keep
to the rules, and only then. Whatever package a call comes to that does not keep to them, the call
fails, and names a fault that is there. -/
theorem rules_enforced (h : s.Reachable) (e : Surroundings) (given : Path) :
    (∀ i, s.indexOf? (e.packageId given) = some i → s.attempt e given = (.ok i, s) ∧
      ∃ c, s.package? i = some c ∧ c.Unambiguous ∧ (∀ d ∈ c.definitions, d.body.Regular) ∧
        s.StructsFit i c) ∧
    (∀ parsed, s.indexOf? (e.packageId given) = none →
      ParsedFiles e.tree (e.absolute given) parsed →
      Resolvable e s (e.absolute given) (e.packageId given) →
      ((∃ n s', s.attempt e given = (.ok n, s')) ↔
        SchemaRules e s (e.absolute given) (e.packageId given) parsed)) ∧
    ∀ s₀ directory package from? parsed,
      ComesTo e s (e.call given) s₀ (.package directory package from?) →
      s₀.indexOf? package = none → ParsedFiles e.tree directory parsed →
      Resolvable e s₀ directory package →
      ¬ SchemaRules e s₀ directory package parsed →
      ∃ err, s.attempt e given = (.error err, s) ∧
        Violation e s₀ directory package parsed err := by
  refine ⟨fun i hi => ?_, fun parsed hnew hparsed hresolve => ?_,
    fun s₀ directory package from? parsed hcomes hnew hparsed hresolve hrules => ?_⟩
  · obtain ⟨c, hc, -⟩ := h.settled.indexOf?_eq_some_iff.1 hi
    obtain ⟨hregular, hfit⟩ := h.lawful i c hc
    refine ⟨Compiles.attempt (.known ?_), c, hc, h.resolved.unambiguous i c hc, hregular, hfit⟩
    rw [Session.finished?_eq_some_iff, hc]
    exact ⟨hi, rfl⟩
  · rw [← compiles_iff hnew hparsed fun d hd => hresolve.resolving h.resolved hd]
    constructor
    · rintro ⟨n, s', hattempt⟩
      rcases attempt_cases s e given with ⟨m, s'', -, hcompiles⟩ | ⟨err, s'', hattempt', -⟩
      · exact ⟨_, _, hcompiles⟩
      · cases hattempt.symm.trans hattempt'
    · rintro ⟨ns, s', hcompiles⟩
      rcases compiles_or_fails e s (e.absolute given) (e.packageId given) none with
        ⟨n, s'', hcompiles'⟩ | ⟨err, s'', hfails⟩
      · exact ⟨n, s'', Compiles.attempt hcompiles'⟩
      · exact absurd hfails hcompiles.not_fails
  · have hresolving {d : Draft} (hd : draft e.tree directory package = .ok d) :=
      hresolve.resolving (hcomes.resolved h.resolved) hd
    rcases compiles_or_fails e s₀ directory package from? with
      ⟨n, s', hcompiles⟩ | ⟨err, s', hfails⟩
    · exact absurd ((compiles_iff hnew hparsed fun d => hresolving).1 ⟨_, _, hcompiles⟩) hrules
    · exact ⟨err, (hcomes.fails hfails).attempt h.settled,
        violation_of_fails hnew hparsed (fun d => hresolving) hfails⟩

theorem rules_enforced_named :
    Session.empty.Reachable ∧
      Session.empty.attempt .namedRight (.ofText "c") = (.ok 0, .named) ∧
      SchemaRules .namedRight .empty (.ofNames ["w", "c"]) "c" namedRightFiles ∧
      Session.named.attempt .namedRight (.ofText "c") = (.ok 0, .named) ∧
      Session.empty.attempt .namedLoop (.ofText "c") = (.error .namedLoop, .empty) ∧
      Violation .namedLoop .empty (.ofNames ["w", "c"]) "c" namedLoopFiles .namedLoop := by
  have hnamed : Session.named.Reachable := .of_attempt .empty attempt_named
  obtain ⟨-, hright, -⟩ := rules_enforced .empty .namedRight (.ofText "c")
  obtain ⟨hagain, -⟩ := rules_enforced hnamed .namedRight (.ofText "c")
  obtain ⟨-, -, hloop⟩ := rules_enforced .empty .namedLoop (.ofText "c")
  obtain ⟨hdirectory, hpackage, -⟩ := Task.package.inj
    (call_named "import \"x\" message A { a []A 1; b x.B 2; }")
  change Surroundings.namedRight.absolute _ = _ at hdirectory
  change Surroundings.namedRight.packageId _ = _ at hpackage
  rw [hdirectory, hpackage] at hright
  rw [hpackage] at hagain
  refine ⟨.empty, attempt_named, ?_, (hagain 0 rfl).1, attempt_namedLoop, ?_⟩
  · exact (hright _ rfl parsedFiles_namedRight (linking_namedRight.resolvable .empty rfl)).1
      ⟨0, _, attempt_named⟩
  · have hcomes : ComesTo .namedLoop .empty (Surroundings.namedLoop.call (.ofText "c")) .empty
        (.package (.ofNames ["w", "c"]) "c" none) := call_named _ ▸ .here
    obtain ⟨err, hattempt, hviolation⟩ := hloop _ _ _ _ _ hcomes rfl parsedFiles_namedLoop
      (linking_namedLoop.resolvable .empty resolveTypes_namedLoop) not_schemaRules_namedLoop
    cases hattempt.symm.trans attempt_namedLoop
    exact hviolation

end Backwire.Package
