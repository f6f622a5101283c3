import Backwire.Proofs.Bindings.Clashes

/-!
# What references lead to

A definition that can be used as a type declares a type, and a message declares a builder as well
(`Scope.typesOf`). Code elsewhere reaches both by paths, and a path ends in an identifier that is
made of the name alone (`leadsTo_definitionCode_iff`).

The builder is declared under the identifier of the name with an ending behind it, and looked for
under the identifier of the name and the ending together. No name with this ending is escaped, so
the two are one unless the name itself is (`text_ofName_writer_iff`).
-/

namespace Backwire.Bindings

open Code Package Schema

/-! ### What is declared -/

/-- The identifiers under which an item declares types. -/
def Item.typeIdentifiers : Item → List Identifier
  | declaration d => if d.isType then [d.name] else []
  | fileAttribute _ | implementation .. | nested .. | moduleFile _ | reexport _ => []

/-- **The types that a definition declares**: its own and, for a message, its builder. -/
def Scope.typesOf (s : Scope) (d : Declared TypeUse) : List Identifier :=
  (s.definitionItems d).flatMap Item.typeIdentifiers

/-- **What a definition declares**, if it can be used as a type. -/
theorem Scope.typesOf_of_kind (home : Scope) {d : Declared TypeUse} {kind : Kind}
    (hkind : d.kind? = some kind) : (home.typesOf d)[0]? = some (.ofName d.name) ∧
      (kind = .message → (home.typesOf d)[1]? = some (Identifier.ofName d.name).writer) := by
  obtain ⟨name, file, body⟩ := d
  cases body with
  | enum | struct =>
    cases hkind
    exact ⟨rfl, nofun⟩
  | message => exact ⟨rfl, fun _ => rfl⟩
  | service => cases hkind

/-! ### What is looked for -/

/-- **A path leads to the item of an identifier**, which is its last segment. -/
def LeadsTo (path : Code) (i : Identifier) : Prop := path.getLast? = some i.text

section Paths

variable {s : Scope} {code : ModulePath → Code} {a : DefinitionId} {d : Declared TypeUse}
  {name i : Identifier}

/-- **A path leads to an item by its name**, in whichever package and file the item stands. -/
theorem leadsTo_pathTo_iff {file : Nat} :
    LeadsTo (s.pathTo code a file name) i ↔ name.text = i.text := by
  unfold Scope.pathTo LeadsTo
  split
  · rw [List.getLast?_append_of_ne_nil _ (List.cons_ne_nil _ _)]
    exact Option.some_inj
  · split <;> exact Option.some_inj

theorem leadsTo_definitionCode_iff (hd : s.session.definition? a = some d) {ending : String} :
    LeadsTo (s.definitionCode code a ending) i ↔
      (Identifier.ofName (d.name ++ ending)).text = i.text := by
  rw [Scope.definitionCode, hd]
  exact leadsTo_pathTo_iff

end Paths

/-! ### Builders -/

/-- A name with the ending of builders is its own identifier. -/
theorem ofName_append_writer (w : String) :
    Identifier.ofName (w ++ "Writer") = .plain (w ++ "Writer") := by
  have hends : "Writer".toList <:+ (w ++ "Writer").toList := by
    rw [String.toList_append]
    exact List.suffix_append ..
  have hreserved : ∀ r ∈ reservedWords, ¬"Writer".toList <:+ r.toList := by decide
  have hkeywords : ∀ r ∈ keywords, ¬"Writer".toList <:+ r.toList := by decide
  rw [Identifier.ofName, if_neg fun h => hreserved _ h hends, if_neg fun h => hkeywords _ h hends]

/-- **Where the two ways to the identifier of a builder meet.** -/
theorem text_ofName_writer_iff {w : String} :
    (Identifier.ofName (w ++ "Writer")).text = (Identifier.ofName w).writer.text ↔
      w ∉ reservedWords := by
  have htexts : (Identifier.ofName (w ++ "Writer")).text = (Identifier.ofName w).writer.text ↔
      w = (Identifier.ofName w).name := by
    rw [ofName_append_writer]
    exact String.append_left_inj _
  rw [htexts, Identifier.name_ofName]
  split
  · next hreserved =>
    refine iff_of_false (fun heq => ?_) (not_not.2 hreserved)
    have hlength := congrArg String.length heq
    simp at hlength
  · next hfree => exact iff_of_true rfl hfree

/-! ### Definitions that fields refer to -/

/-- **A field refers to a definition** of the kind that was recorded for its type. -/
theorem exists_definition_of_field {s : Session} (h : s.Reachable) {number : Nat} {c : Compiled}
    (hc : s.package? number = some c) {m : Declared TypeUse} (hm : m ∈ c.definitions)
    {fields : List (Field TypeUse UInt16)} (hbody : m.body = .message fields)
    {f : Field TypeUse UInt16} (hf : f ∈ fields) {r : Reference} {t : Target}
    (hleaf : f.type.leaf = .named r t) :
    ∃ d, s.definition? t.definition = some d ∧ d.kind? = some t.kind := by
  have htype : (f.name, f.type) ∈ m.body.types := by
    rw [hbody]
    exact List.mem_map_of_mem hf
  have hoccurs : ⟨m, f.name, f.type⟩ ∈ c.occurrences :=
    List.mem_flatMap.2 ⟨m, hm, List.mem_map.2 ⟨_, htype, rfl⟩⟩
  exact (h.resolved.records _ c hc _ hoccurs r t hleaf).definition? hc

end Backwire.Bindings

namespace Backwire.Package

open Schema

/-! ### A sample -/

/-- The text of a file with a message whose name is reserved, and a message that has fields of both
types. -/
def selfishText : String := "message Self {} message M { a Self 1; b M 2; }"

/-- The package of this file, with the types of its fields. -/
def PackageOf.selfish {κ τ : Type} (a b : τ) : PackageOf κ τ :=
  ⟨"c", .ofNames ["w", "c"], [⟨"m.spec", .ofNames ["w", "c", "m.spec"], [], []⟩],
    [⟨"Self", 0, .message []⟩, ⟨"M", 0, .message [⟨"a", ⟨0, a⟩, 1⟩, ⟨"b", ⟨0, b⟩, 2⟩]⟩]⟩

/-- The package with its types resolved. -/
def PackageOf.selfishResolved : Compiled :=
  .selfish (.named ⟨none, "Self"⟩ ⟨.message, ⟨0, 0⟩, none⟩)
    (.named ⟨none, "M"⟩ ⟨.message, ⟨0, 1⟩, none⟩)

/-- The session in which it has been compiled. -/
def Session.selfish : Session := ⟨[.finished .selfishResolved], [("c", 0)]⟩

theorem attempt_selfish :
    Session.empty.attempt (.named selfishText) (.ofText "c") = (.ok 0, .selfish) := by
  have hdraft : draft (Surroundings.named selfishText).tree (.ofNames ["w", "c"]) "c" =
      .ok (.selfish (.named ⟨none, "Self"⟩) (.named ⟨none, "M"⟩)) :=
    draft_of_single ⟨"m.spec", .ofNames ["w", "c", "m.spec"], selfishText⟩ rfl rfl rfl rfl
      (by cbv : parse selfishText = .ok ⟨[], [], [⟨"Self", .message []⟩,
        ⟨"M", .message [⟨"a", ⟨0, .named ⟨none, "Self"⟩⟩, 1⟩,
          ⟨"b", ⟨0, .named ⟨none, "M"⟩⟩, 2⟩]⟩]⟩) (by cbv)
  refine Compiles.attempt (call_named _ ▸ ?_)
  exact .fresh (p := .selfish (.named ⟨none, "Self"⟩) (.named ⟨none, "M"⟩)) rfl hdraft .done rfl
    (by cbv)

theorem reachable_selfish : Session.selfish.Reachable := .of_attempt .empty attempt_selfish

end Backwire.Package

namespace Backwire.Bindings

open Code Package Schema

/-! ### References -/

/-- **What references lead to.** Take a session that can be reached, and any places in which its code
stands.

* The path of a definition that can be used as a type leads to the type that it declares.
* A field of a message whose type is a message has one function in the builder of the message. Its
  result and its body refer to the builder of a definition that is a message. The paths of this
  builder lead to the builder that the message declares if and only if its name is not reserved. -/
theorem references_lead_to_declared {s : Session} (h : s.Reachable) :
    (∀ a d, s.definition? a = some d → d.kind?.isSome → ∀ sc home : Scope, sc.session = s →
      ∃ type, (home.typesOf d)[0]? = some type ∧ LeadsTo (sc.definitionPath a "") type) ∧
    ∀ number c, s.package? number = some c → ∀ m ∈ c.definitions, ∀ fields,
      m.body = .message fields → ∀ f ∈ fields, ∀ r a link,
      f.type = ⟨0, .named r ⟨.message, a, link⟩⟩ →
      ∃ d, s.definition? a = some d ∧ ∀ sc home : Scope, sc.session = s →
        ∃ type value argument writer,
          sc.setters (.ofName m.name) f = [.function [] ["pub"] (.led "begin_" f.name) []
            [ofText "& mut self"] (type ++ angles ["'_"])
            (value ++ ["::", "from_writer"] ++ parens argument ++ sc.definitionEnd a)] ∧
          type = sc.definitionPath a "Writer" ∧ (home.typesOf d)[1]? = some writer ∧
          (LeadsTo type writer ↔ d.name ∉ reservedWords) ∧
          (LeadsTo value writer ↔ d.name ∉ reservedWords) := by
  constructor
  · intro a d hd hkind sc home hsc
    obtain ⟨kind, hkind⟩ := Option.isSome_iff_exists.1 hkind
    refine ⟨_, (home.typesOf_of_kind hkind).1, (leadsTo_definitionCode_iff (hsc ▸ hd)).2 ?_⟩
    rw [String.append_empty]
  · intro number c hc m hm fields hbody f hf r a link htype
    have hleaf := congrArg Listed.leaf htype
    obtain ⟨d, hd, hkind⟩ := exists_definition_of_field h hc hm hbody hf hleaf
    refine ⟨d, hd, fun sc home hsc => ?_⟩
    have hleads (code : ModulePath → Code) :
        LeadsTo (sc.definitionCode code a "Writer") (Identifier.ofName d.name).writer ↔
          d.name ∉ reservedWords :=
      (leadsTo_definitionCode_iff (hsc ▸ hd)).trans text_ofName_writer_iff
    have hsetters : sc.setters (.ofName m.name) f = [sc.beginMessage f.name
        [(Identifier.ofName m.name).text, "::", (Identifier.tag f.name).text] a] := by
      rw [Scope.setters, htype]
    exact ⟨_, _, _, _, hsetters, rfl, (home.typesOf_of_kind hkind).2 rfl, hleads _, hleads _⟩

/-- The builder of a message is found by a field of its own type. -/
theorem references_lead_to_declared_selfish : Session.selfish.Reachable ∧
    ∀ sc home : Scope, sc.session = .selfish →
      ∃ writer, (home.typesOf (PackageOf.selfishResolved.definitions[1]))[1]? = some writer ∧
        LeadsTo (sc.definitionPath ⟨0, 1⟩ "Writer") writer := by
  refine ⟨reachable_selfish, fun sc home hsc => ?_⟩
  obtain ⟨d, hd, hall⟩ := (references_lead_to_declared reachable_selfish).2 0 _ rfl _
    (.tail _ (.head _)) _ rfl _ (.tail _ (.head _)) _ _ _ rfl
  cases hd
  obtain ⟨type, value, argument, writer, -, rfl, hwriter, hleads, -⟩ := hall sc home hsc
  exact ⟨writer, hwriter, hleads.2 (by decide)⟩

/-- **A path that leads nowhere** stands in bindings that are generated for a package that is
compiled. -/
theorem reference_selfish :
    Session.empty.attempt (.named selfishText) (.ofText "c") = (.ok 0, .selfish) ∧
    ∃ c files, Session.selfish.package? 0 = some c ∧
      generate ModulePath.ofText ⟨defaultRuntime, true⟩ .selfish 0 c = .ok files ∧
      ∃ file ∈ files, ∃ sc : Scope, file.items = sc.fileItems c ∧
        file.items.flatMap Item.types = ["Self_", "Self_Writer", "M", "MWriter"] ∧
        sc.definitionPath ⟨0, 0⟩ "Writer" = ["SelfWriter"] := by
  have hok : (generate ModulePath.ofText ⟨defaultRuntime, true⟩ .selfish 0
      .selfishResolved).isOk := by decide +kernel
  obtain ⟨files, hfiles⟩ := exists_of_isOk hok
  obtain ⟨runtime, paths, sources, gathering, rfl, hlength, -, hitems⟩ := generate_ok hfiles
  have hone : sources.length = 1 := hlength
  have hfile : sources[0]? = some sources[0] := List.getElem?_eq_getElem (by omega)
  refine ⟨attempt_selfish, _, _, rfl, hfiles, sources[0], ?_, _, hitems 0 _ hfile, ?_, rfl⟩
  · exact List.mem_append_left _ (List.getElem_mem _)
  · rw [hitems 0 _ hfile]
    rfl

end Backwire.Bindings
