import Backwire.Bindings.Generate
import Backwire.Proofs.Bindings.Identifiers
import Backwire.Proofs.Package.Words

/-!
# Names within the bindings of a definition

Types have names of their own, and so have values, which are constants, functions and the
constructors of types that wrap a value. A file, a module, an implementation and the fields of a
struct are scopes: no two things in one of them may have one name (`Item.Apart`). And what a struct
is read into, field by field, must not hide what the function that reads it calls its own
(`Scope.ShadowFree`).

The members of a definition differ in their names. What is made of these names, and stands beside
names that are always there, differs if the members are kept apart in snake case, from each other
and from those (`MembersApart`, `Scope.definitionItems_apart_iff`).
-/

namespace Backwire.Bindings

open Package Schema

/-! ### Scopes -/

namespace Declaration

/-- The names that a declaration takes among types. -/
def types (d : Declaration) : List String := if d.isType then [d.name.name] else []

/-- The names that a declaration takes among values. A type that wraps a value is also a function
from that value. -/
def values : Declaration → List String
  | record .. => []
  | wrapper _ name _ | constant _ name _ _ | function _ _ name _ _ _ _ => [name.name]

/-- The fields of a struct have names of their own. -/
def FieldsApart : Declaration → Prop
  | record _ _ _ fields => (fields.map fun f => f.name.name).Nodup
  | wrapper .. | constant .. | function .. => True

/-- **No two declarations of a scope have one name**. -/
structure Apart (ds : List Declaration) : Prop where
  types : (ds.flatMap Declaration.types).Nodup
  values : (ds.flatMap Declaration.values).Nodup
  fields : ∀ d ∈ ds, d.FieldsApart

end Declaration

namespace Item

/-- The names that an item takes among the types of its file. -/
def types : Item → List String
  | declaration d => d.types
  | nested _ name _ | moduleFile name => [name.name]
  | fileAttribute _ | implementation .. | reexport _ => []

/-- The names that an item takes among the values of its file. -/
def values : Item → List String
  | declaration d => d.values
  | fileAttribute _ | implementation .. | nested .. | moduleFile _ | reexport _ => []

/-- **Nothing clashes in the scopes within an item.** -/
def Apart : Item → Prop
  | declaration d => d.FieldsApart
  | implementation _ members | nested _ _ members => Declaration.Apart members
  | fileAttribute _ | moduleFile _ | reexport _ => True

end Item

/-- The names that a statement binds: those of its pattern, if it is a `let`. -/
def Code.bound : Code → List String
  | "let" :: rest => (rest.takeWhile (· ≠ "=")).filter (· ∉ ["(", ")", ",", "mut", "_"])
  | _ => []

/-- The statements of the function that reads a struct, up to its result. -/
def Scope.decodeStatements (s : Scope) (fields : List (Identifier × Code)) : List Code :=
  (Code.ofText "let ( __body , __n ) =" ++ s.call "decode" "decode_struct"
      ++ Code.ofText "( b ) ? ;")
    :: Scope.decodeStart fields.length
    :: match fields with
      | [] => []
      | f :: fs => (fs.reverse.map fun g => s.decodeStep g false) ++ [s.decodeStep f true]

/-- The fields of a struct, as they are bound. -/
def Scope.structFields (s : Scope) (parameters : List (Parameter TypeUse)) :
    List (Identifier × Code) :=
  parameters.map fun p => (.ofField p.name, s.viewType p.type)

/-- **No field hides what the function that reads its struct has bound**, nor is it hidden: its name
is bound once. The parameter of the function has been read before anything is bound. -/
def Scope.ShadowFree (s : Scope) (b : Body TypeUse UInt16) : Prop :=
  match b with
  | .struct parameters =>
    let fields := s.structFields parameters
    ∀ f ∈ fields, ((s.decodeStatements fields).flatMap Code.bound).count f.1.text = 1
  | .enum _ | .message _ | .service _ => True

theorem Scope.flatten_decodeStatements (s : Scope) (fields : List (Identifier × Code)) :
    (s.decodeStatements fields).flatten =
      Code.ofText "let ( __body , __n ) =" ++ s.call "decode" "decode_struct" ++
        Code.ofText "( b ) ? ;" ++ Scope.decodeStart fields.length ++ s.decodeSteps fields := by
  cases fields <;> simp [decodeStatements, decodeSteps]

/-- These are the statements of that function. -/
theorem Scope.mem_structItems_decode (s : Scope) (name : String)
    (parameters : List (Parameter TypeUse)) :
    ∃ attributes result ending, .declaration (.function attributes ["pub"] (.led "decode_" name)
      (Code.angles ["'a"]) [Code.ofText "b : & 'a [ u8 ]"] result
      ((s.decodeStatements (s.structFields parameters)).flatten ++ "Ok" :: ending)) ∈
        s.structItems name parameters := by
  rw [flatten_decodeStatements]
  exact ⟨_, _, _, .tail _ (.tail _ (.head _))⟩

/-- What is made of each member in pairs can be listed one kind after the other. -/
theorem flatMap_pair_perm {α β : Type} (f g : α → β) (l : List α) :
    (l.flatMap fun a => [f a, g a]).Perm (l.map f ++ l.map g) := by
  rw [List.map_eq_flatMap (f := g)]
  exact (List.map_append_flatMap_perm ..).symm

/-! ### What the function that reads a struct binds -/

section Bound

variable {s : Scope} {fields : List (Identifier × Code)} {x : String}

/-- The names that the function that reads a struct of so many fields has bound for itself. -/
def decodeLocals : Nat → List String
  | 0 => ["__body", "__n"]
  | 1 => ["__body", "__n", "__rest"]
  | _ => ["__body", "__n", "__rest", "__used"]

/-- All that it binds for itself, as often as it does. -/
def ownBindings : Nat → List String
  | 0 => ["__body", "__n"]
  | n + 1 => ["__body", "__n", "__rest"] ++ List.replicate n "__used"

theorem mem_ownBindings {n : Nat} : x ∈ ownBindings n ↔ x ∈ decodeLocals n := by
  match n with
  | 0 => rfl
  | 1 => rfl
  | n + 2 => simp [ownBindings, decodeLocals]

/-- A statement binds a pair of names. -/
theorem bound_pair {y : String} (hx : x ∉ ["=", "(", ")", ",", "mut", "_"]) (hy : y ≠ "=")
    (rest : Code) :
    Code.bound ("let" :: Code.parens [x, ",", y] ++ ["="] ++ rest) =
      x :: [y].filter (· ∉ ["(", ")", ",", "mut", "_"]) := by
  simp only [List.mem_cons, not_or] at hx
  have htake : (Code.parens [x, ",", y] ++ ["="] ++ rest).takeWhile (· ≠ "=") =
      ["(", x, ",", y, ")"] := by
    simp [Code.parens, hx, hy]
  have hbound : Code.bound ("let" :: Code.parens [x, ",", y] ++ ["="] ++ rest) =
      ((Code.parens [x, ",", y] ++ ["="] ++ rest).takeWhile (· ≠ "=")).filter
        (· ∉ ["(", ")", ",", "mut", "_"]) := rfl
  rw [hbound, htake]
  simp [List.filter_cons, hx]

theorem bound_decodeStep {f : Identifier × Code}
    (hf : f.1.text ∉ ["=", "(", ")", ",", "mut", "_"]) :
    Code.bound (s.decodeStep f false) = [f.1.text, "__used"] ∧
      Code.bound (s.decodeStep f true) = [f.1.text] := by
  constructor
  · rw [Scope.decodeStep, List.append_assoc _ (s.decodeCall _ _ ++ _)]
    exact bound_pair hf (by decide) _
  · exact bound_pair hf (by decide) _

/-- **The names that the function that reads a struct binds**: those of the fields, and its own. -/
theorem bound_decodeStatements
    (h : ∀ f ∈ fields, f.1.text ∉ ["=", "(", ")", ",", "mut", "_"]) :
    ((s.decodeStatements fields).flatMap Code.bound).Perm
      (fields.map (fun f => f.1.text) ++ ownBindings fields.length) := by
  have hfirst : Code.bound (Code.ofText "let ( __body , __n ) =" ++
      s.call "decode" "decode_struct" ++ Code.ofText "( b ) ? ;") = ["__body", "__n"] := by
    rw [List.append_assoc]
    exact bound_pair (by decide) (by decide) _
  cases fields with
  | nil =>
    have hstart : Code.bound (Scope.decodeStart 0) = [] := by decide
    rw [Scope.decodeStatements, List.flatMap_cons, List.flatMap_cons, hfirst, List.length_nil,
      hstart]
    rfl
  | cons f fs =>
    obtain ⟨hf, hfs⟩ := List.forall_mem_cons.1 h
    have hstart : Code.bound (Scope.decodeStart (fs.length + 1)) = ["__rest"] := by
      cases fs with
      | nil => exact (by decide : Code.bound (Scope.decodeStart 1) = ["__rest"])
      | cons => exact (by decide : Code.bound (Scope.decodeStart 2) = ["__rest"])
    have hsteps : (fs.reverse.flatMap fun g => Code.bound (s.decodeStep g false)).Perm
        (fs.map (fun g => g.1.text) ++ List.replicate fs.length "__used") := by
      have hstep : (fs.flatMap fun g => Code.bound (s.decodeStep g false)) =
          fs.flatMap fun g => [g.1.text, "__used"] := by
        rw [List.flatMap_def, List.flatMap_def]
        exact congrArg List.flatten
          (List.map_congr_left fun g hg => (bound_decodeStep (hfs g hg)).1)
      refine (fs.reverse_perm.flatMap_right _).trans ?_
      rw [hstep, ← List.map_const']
      exact flatMap_pair_perm _ _ fs
    rw [Scope.decodeStatements, List.flatMap_cons, List.flatMap_cons, hfirst, List.length_cons,
      hstart, List.flatMap_append, List.flatMap_map, List.flatMap_singleton,
      (bound_decodeStep hf).2, List.perm_iff_count]
    intro x
    have hcount := hsteps.count_eq x
    simp only [List.map_cons, ownBindings, List.count_append, List.count_cons, List.count_nil]
      at hcount ⊢
    omega

end Bound

/-! ### Members that are kept apart -/

/-- **The names of the members of a definition are kept apart**, from each other and from the names
that are there in any case:

* those of an enum, as identifiers;
* those of a struct and of a message, as identifiers in snake case;
* those of a service, which are written in capitals, in snake case.

No field of a message is called as the function that tells whether another one is present, which has
the name of that field behind `has_`. -/
def MembersApart {τ ι : Type} (b : Body τ ι) : Prop :=
  match b with
  | .enum _ => (∀ v ∈ b.names, ∀ w ∈ b.names, ¬Yields v w) ∧
    ∀ name ∈ b.names, name ∉ ["VALUES", "name", "from_int"]
  | .struct fields => b.names.Pairwise (fun v w => ¬Alike (snakeCase v) (snakeCase w)) ∧
    ∀ name ∈ b.names, snakeCase name ∉ decodeLocals fields.length
  | .message _ => b.names.Pairwise (fun v w => ¬Alike (snakeCase v) (snakeCase w)) ∧
    (∀ name ∈ b.names, snakeCase name ∉ ["from_bytes", "as_message"]) ∧
    ∀ v ∈ b.names, ∀ w ∈ b.names, snakeCase v ≠ "has_" ++ snakeCase w
  | .service _ => b.names.Pairwise (fun v w => snakeCase v ≠ snakeCase w) ∧
    ∀ name ∈ b.names, snakeCase name ∉ ["name", "methods"]

instance {τ ι : Type} : (b : Body τ ι) → Decidable (MembersApart b)
  | .enum _ => inferInstanceAs (Decidable (_ ∧ _))
  | .struct _ => inferInstanceAs (Decidable (_ ∧ _))
  | .message _ => inferInstanceAs (Decidable (_ ∧ _ ∧ _))
  | .service _ => inferInstanceAs (Decidable (_ ∧ _))

section Members

variable {s : Scope} {names : List String} {n : Nat} {w : String}

/-! ### Scopes of values -/

@[simp] theorem Declaration.isType_constant {attributes type value : Code} {name : Identifier} :
    (constant attributes name type value).isType = false := rfl

@[simp] theorem Declaration.isType_function {attributes leading generics result body : Code}
    {parameters : List Code} {name : Identifier} :
    (function attributes leading name generics parameters result body).isType = false := rfl

/-- Behind declarations, constants and functions add nothing but values. -/
theorem Declaration.apart_append_iff {ds es : List Declaration} (h : ∀ d ∈ es, d.isType = false) :
    Declaration.Apart (ds ++ es) ↔
      (ds.flatMap Declaration.types).Nodup ∧ (∀ d ∈ ds, d.FieldsApart) ∧
        (ds.flatMap Declaration.values ++ es.map fun d => d.name.name).Nodup := by
  have hvalue : ∀ d ∈ es, d.types = [] ∧ d.values = [d.name.name] ∧ d.FieldsApart := by
    intro d hd
    cases d with
    | constant => exact ⟨rfl, rfl, trivial⟩
    | function => exact ⟨rfl, rfl, trivial⟩
    | record => cases h _ hd
    | wrapper => cases h _ hd
  have htypes : es.flatMap Declaration.types = [] :=
    List.flatMap_eq_nil_iff.2 fun d hd => (hvalue d hd).1
  have hvalues : es.flatMap Declaration.values = es.map fun d => d.name.name := by
    rw [List.map_eq_flatMap, List.flatMap_def, List.flatMap_def]
    exact congrArg List.flatten (List.map_congr_left fun d hd => (hvalue d hd).2.1)
  have hfields : (∀ d ∈ ds ++ es, d.FieldsApart) ↔ ∀ d ∈ ds, d.FieldsApart :=
    List.forall_mem_append.trans (and_iff_left fun d hd => (hvalue d hd).2.2)
  constructor
  · rintro ⟨ht, hv, hf⟩
    rw [List.flatMap_append, htypes, List.append_nil] at ht
    rw [List.flatMap_append, hvalues] at hv
    exact ⟨ht, hfields.1 hf, hv⟩
  · rintro ⟨ht, hf, hv⟩
    refine ⟨?_, ?_, hfields.2 hf⟩
    · rwa [List.flatMap_append, htypes, List.append_nil]
    · rwa [List.flatMap_append, hvalues]

theorem Declaration.apart_iff {ds : List Declaration} (h : ∀ d ∈ ds, d.isType = false) :
    Declaration.Apart ds ↔ (ds.map fun d => d.name.name).Nodup :=
  (show Declaration.Apart ([] ++ ds) ↔ _ from apart_append_iff h).trans (by simp)

theorem Item.apart_function {attributes leading generics result body : Code}
    {parameters : List Code} {name : Identifier} :
    (declaration (.function attributes leading name generics parameters result body)).Apart :=
  trivial

theorem Scope.apart_encoder (type body : Code) : (s.encoder type body).Apart :=
  (Declaration.apart_iff (by simp)).2 (List.nodup_singleton _)

theorem Scope.apart_decoder (type body : Code) : (s.decoder type body).Apart :=
  (Declaration.apart_iff (by simp)).2 (List.nodup_singleton _)

/-! ### Names that are made of names -/

/-- What is called as a member. -/
def fieldNames (names : List String) : List String :=
  names.map fun v => (Identifier.ofField v).name

/-- The functions that are called after members, behind a lead. -/
def ledNames (lead : String) (names : List String) : List String :=
  names.map fun v => (Identifier.led lead v).name

/-- The constants that hold the tags of members. -/
def tagNames (names : List String) : List String := names.map fun v => (Identifier.tag v).name

theorem nodup_fieldNames_iff :
    (fieldNames names).Nodup ↔ names.Pairwise fun v w => ¬Alike (snakeCase v) (snakeCase w) := by
  rw [fieldNames, List.Nodup, List.pairwise_map]
  simp only [Identifier.ofField, ne_eq, Identifier.name_ofName_eq_iff]

theorem nodup_ledNames_iff (lead : String) :
    (ledNames lead names).Nodup ↔ names.Pairwise fun v w => snakeCase v ≠ snakeCase w := by
  rw [ledNames, List.Nodup, List.pairwise_map]
  simp only [Identifier.led, Identifier.plain, ne_eq, String.append_right_inj]

theorem nodup_map_shoutyCase_iff (hword : ∀ v ∈ names, isName v) :
    (names.map shoutyCase).Nodup ↔ names.Pairwise fun v w => snakeCase v ≠ snakeCase w := by
  rw [List.Nodup, List.pairwise_map]
  exact List.Pairwise.iff_of_mem fun hv hw => not_congr (shoutyCase_inj (hword _ hv) (hword _ hw))

theorem nodup_tagNames_iff (hword : ∀ v ∈ names, isName v) :
    (tagNames names).Nodup ↔ names.Pairwise fun v w => snakeCase v ≠ snakeCase w := by
  have hinjective : Function.Injective ("TAG_" ++ ·) := fun _ _ => (String.append_right_inj _).1
  have htags : tagNames names = (names.map shoutyCase).map ("TAG_" ++ ·) := by
    rw [List.map_map]
    rfl
  rw [htags, List.nodup_map_iff hinjective, nodup_map_shoutyCase_iff hword]

/-- Constants for tags have capital letters, so they are not called as what has none. -/
theorem disjoint_tagNames {l : List String} (hl : ∀ x ∈ l, IsSnake x) :
    (tagNames names).Disjoint l := by
  intro x hx hmem
  obtain ⟨v, -, rfl⟩ := List.mem_map.1 hx
  have hcapital := hl _ hmem 'T' (by simp [Identifier.tag, Identifier.plain])
  exact absurd hcapital (by decide)

theorem isSnake_of_mem_ledNames {lead : String} (hlead : IsSnake lead)
    (hword : ∀ v ∈ names, isName v) : ∀ x ∈ ledNames lead names, IsSnake x :=
  List.forall_mem_map.2 fun v hv => hlead.append (isSnake_snakeCase (hword v hv))

theorem isSnake_of_mem_fieldNames (hword : ∀ v ∈ names, isName v) :
    ∀ x ∈ fieldNames names, IsSnake x := by
  refine List.forall_mem_map.2 fun v hv => ?_
  have hsnake := isSnake_snakeCase (hword v hv)
  rw [Identifier.ofField, Identifier.name_ofName]
  split
  · exact hsnake.append (by simp [IsSnake, isSnakeChar_iff])
  · exact hsnake

/-- No reserved word, and nothing that one yields, begins with `has_`. -/
theorem disjoint_ledNames_has_iff : (ledNames "has_" names).Disjoint (fieldNames names) ↔
    ∀ v ∈ names, ∀ w ∈ names, snakeCase v ≠ "has_" ++ snakeCase w := by
  have hfree (w : String) : IsFree ("has_" ++ w) := isFree_of_head? (c := 'h') (by simp) (by decide)
  have hiff (v w : String) : (Identifier.ofField v).name = (Identifier.led "has_" w).name ↔
      snakeCase v = "has_" ++ snakeCase w := Identifier.name_ofName_eq_iff_of_free (hfree _)
  constructor
  · intro h v hv w hw heq
    exact h (List.mem_map_of_mem hw) ((hiff v w).2 heq ▸ List.mem_map_of_mem hv)
  · intro h x hx hmem
    obtain ⟨w, hw, rfl⟩ := List.mem_map.1 hx
    obtain ⟨v, hv, heq⟩ := List.mem_map.1 hmem
    exact h v hv w hw ((hiff v w).1 heq)

/-- Names that are made of names differ from each other and from names that are always there. -/
theorem nodup_map_append_iff {α β : Type} {l : List α} {f : α → β} {fixed : List β}
    (h : fixed.Nodup) :
    (l.map f ++ fixed).Nodup ↔ (l.map f).Nodup ∧ ∀ a ∈ l, f a ∉ fixed := by
  rw [List.nodup_append', and_iff_right h]
  exact and_congr_right fun _ => List.forall_mem_map

/-! ### The bindings of a definition -/

/-- **What is made of the values of an enum.** -/
theorem Scope.enum_apart_iff {name : String} {values : List EnumValue}
    (hnames : (values.map EnumValue.name).Nodup) :
    (∀ i ∈ s.enumItems name values, i.Apart) ↔
      MembersApart (.enum values : Body TypeUse UInt16) := by
  have hfixed : ["VALUES", "name", "from_int"].Nodup := by decide
  have hfree : ∀ v ∈ ["VALUES", "name", "from_int"], IsFree v := by decide
  refine (List.forall_mem_cons.trans (and_iff_right trivial)).trans ?_
  refine (List.forall_mem_cons.trans (and_iff_left ?_)).trans ?_
  · simp [apart_encoder, apart_decoder]
  · rw [Item.Apart, Declaration.apart_iff (by simp [or_imp, forall_and]), List.map_append,
      List.map_map]
    have hmap := nodup_map_append_iff (l := values.map EnumValue.name)
      (f := fun v => (Identifier.ofName v).name) hfixed
    rw [Identifier.nodup_map_ofName_iff hnames] at hmap
    simp only [Identifier.name_ofName_mem_iff hfree, List.map_map] at hmap
    exact hmap

/-- What a field is bound as is a local of the function that reads its struct if the field is called
like one. -/
theorem text_ofField_mem_decodeLocals (h : isName w) :
    (Identifier.ofField w).text ∈ decodeLocals n ↔ snakeCase w ∈ decodeLocals n := by
  have hlocals : ∀ l ∈ decodeLocals n,
      IsFree l ∧ (Identifier.ofName l).text = l ∧ '#' ∉ l.toList := by
    match n with
    | 0 => decide
    | 1 => decide
    | n + 2 => exact (by decide : ∀ l ∈ ["__body", "__n", "__rest", "__used"],
        IsFree l ∧ (Identifier.ofName l).text = l ∧ '#' ∉ l.toList)
  have hiff : ∀ l ∈ decodeLocals n, (Identifier.ofField w).text = l ↔ snakeCase w = l := by
    intro l hl
    obtain ⟨hfree, htext, hmark⟩ := hlocals l hl
    have hinj := Identifier.text_ofName_inj (isSnake_snakeCase h).not_mem hmark
    rw [htext] at hinj
    exact hinj.trans (alike_iff_eq hfree)
  constructor
  · intro hmem
    exact (hiff _ hmem).1 rfl ▸ hmem
  · intro hmem
    rwa [(hiff _ hmem).2 rfl]

/-- **What hides a local**: a field of its name, if the names of the fields are kept apart. -/
theorem Scope.shadowFree_iff {parameters : List (Parameter TypeUse)}
    (hword : ∀ v ∈ parameters.map Parameter.name, isName v)
    (hapart : (parameters.map Parameter.name).Pairwise
      fun v w => ¬Alike (snakeCase v) (snakeCase w)) :
    s.ShadowFree (.struct parameters) ↔
      ∀ v ∈ parameters.map Parameter.name, snakeCase v ∉ decodeLocals parameters.length := by
  have hfields : (s.structFields parameters).map (fun f => f.1.text) =
      (parameters.map Parameter.name).map fun v => (Identifier.ofField v).text := by
    rw [structFields, List.map_map, List.map_map]
    rfl
  have hlength : (s.structFields parameters).length = parameters.length := List.length_map _
  have hnodup : ((s.structFields parameters).map fun f => f.1.text).Nodup := by
    rw [hfields, List.Nodup, List.pairwise_map]
    refine hapart.imp_of_mem fun hv hw hne => ?_
    rwa [ne_eq, Identifier.ofField, Identifier.ofField, Identifier.text_ofName_inj
      (isSnake_snakeCase (hword _ hv)).not_mem (isSnake_snakeCase (hword _ hw)).not_mem]
  have hbound : ∀ f ∈ s.structFields parameters, f.1.text ∉ ["=", "(", ")", ",", "mut", "_"] := by
    refine List.forall_mem_map.2 fun p hp => ?_
    exact Identifier.text_ofName_not_mem
      (isSnake_snakeCase (hword _ (List.mem_map_of_mem hp)))
  have hcount : ∀ f ∈ s.structFields parameters,
      ((s.decodeStatements (s.structFields parameters)).flatMap Code.bound).count f.1.text = 1 ↔
        f.1.text ∉ decodeLocals parameters.length := by
    intro f hf
    rw [(bound_decodeStatements hbound).count_eq, List.count_append, hlength,
      List.count_eq_one_of_mem hnodup (List.mem_map_of_mem hf), Nat.add_eq_left,
      List.count_eq_zero, mem_ownBindings]
  refine (forall₂_congr hcount).trans ?_
  rw [structFields, List.forall_mem_map, List.forall_mem_map]
  exact forall₂_congr fun p hp =>
    not_congr (text_ofField_mem_decodeLocals (hword _ (List.mem_map_of_mem hp)))

/-- **What is made of the fields of a struct.** -/
theorem Scope.struct_apart_iff {name : String} {parameters : List (Parameter TypeUse)}
    (hword : ∀ v ∈ parameters.map Parameter.name, isName v) :
    (∀ i ∈ s.structItems name parameters, i.Apart) ∧ s.ShadowFree (.struct parameters) ↔
      MembersApart (.struct parameters : Body TypeUse UInt16) := by
  have hitems : (∀ i ∈ s.structItems name parameters, i.Apart) ↔
      (parameters.map Parameter.name).Pairwise fun v w => ¬Alike (snakeCase v) (snakeCase w) := by
    refine (List.forall_mem_cons.trans (and_iff_left ?_)).trans ?_
    · simp [Item.apart_function, apart_encoder, apart_decoder]
    · rw [Item.Apart, Declaration.FieldsApart, ← nodup_fieldNames_iff, fieldNames, List.map_map,
        List.map_map, List.map_map]
      rfl
  rw [hitems]
  exact and_congr_right fun hapart => shadowFree_iff hword hapart

/-- **What is made of the methods of a service.** -/
theorem service_apart_iff {name : String} {methods : List (Method TypeUse)}
    (hword : ∀ v ∈ methods.map Method.name, isName v) :
    (∀ i ∈ serviceItems name methods, i.Apart) ↔
      MembersApart (.service methods : Body TypeUse UInt16) := by
  have hfixed : ["NAME", "METHODS", "method"].Nodup := by decide
  have hmem : ∀ v ∈ methods.map Method.name,
      shoutyCase v ∈ ["NAME", "METHODS", "method"] ↔ snakeCase v ∈ ["name", "methods"] := by
    intro v hv
    have hname : shoutyCase v = "NAME" ↔ snakeCase v = "name" :=
      shoutyCase_eq_iff (hword v hv)
        (show ∀ c ∈ "name".toList, isSnakeChar c by simp [isSnakeChar_iff])
    have hmethods : shoutyCase v = "METHODS" ↔ snakeCase v = "methods" :=
      shoutyCase_eq_iff (hword v hv)
        (show ∀ c ∈ "methods".toList, isSnakeChar c by simp [isSnakeChar_iff])
    have hmethod : shoutyCase v ≠ "method" :=
      shoutyCase_ne (c := 'm') (hword v hv) (by simp) (by decide)
    simp [hname, hmethods, hmethod]
  refine List.forall_mem_singleton.trans ?_
  rw [Item.Apart, List.append_assoc,
    Declaration.apart_append_iff (by simp [or_imp, forall_and])]
  refine (and_iff_right ?_).trans ((and_iff_right ?_).trans ?_)
  · exact (by decide : ["Param", "Method"].Nodup)
  · simp [Declaration.FieldsApart, Identifier.plain]
  · rw [List.map_append, List.map_map]
    have hperm : ("NAME" :: ((methods.map Method.name).map shoutyCase ++
        ["METHODS", "method"])).Perm
        ((methods.map Method.name).map shoutyCase ++ ["NAME", "METHODS", "method"]) :=
      List.perm_middle.symm
    have hiff := hperm.nodup_iff.trans (nodup_map_append_iff hfixed)
    rw [nodup_map_shoutyCase_iff hword, forall₂_congr fun v hv => not_congr (hmem v hv),
      List.map_map] at hiff
    exact hiff

/-- **What is made of the fields of a message in its view**: a constant and two functions of each,
beside two functions that are always there. -/
theorem nodup_view_iff (hword : ∀ v ∈ names, isName v) :
    (tagNames names ++ ["from_bytes", "as_message"] ++
      names.flatMap fun v => [(Identifier.led "has_" v).name, (Identifier.ofField v).name]).Nodup ↔
      names.Pairwise (fun v w => ¬Alike (snakeCase v) (snakeCase w)) ∧
        (∀ v ∈ names, snakeCase v ∉ ["from_bytes", "as_message"]) ∧
        ∀ v ∈ names, ∀ w ∈ names, snakeCase v ≠ "has_" ++ snakeCase w := by
  have hfixed : ["from_bytes", "as_message"].Nodup := by decide
  have hfree : ∀ v ∈ ["from_bytes", "as_message"], IsFree v := by decide
  have hfamilies : (tagNames names ++ ["from_bytes", "as_message"] ++
      names.flatMap fun v => [(Identifier.led "has_" v).name, (Identifier.ofField v).name]).Perm
      (tagNames names ++ (ledNames "has_" names ++
        (fieldNames names ++ ["from_bytes", "as_message"]))) := by
    rw [List.append_assoc, ← List.append_assoc (ledNames "has_" names)]
    exact (List.perm_append_comm.trans ((flatMap_pair_perm _ _ names).append_right _)).append_left _
  have htags : (tagNames names).Disjoint (ledNames "has_" names ++
      (fieldNames names ++ ["from_bytes", "as_message"])) := by
    refine disjoint_tagNames (List.forall_mem_append.2 ⟨?_, List.forall_mem_append.2 ⟨?_, ?_⟩⟩)
    · exact isSnake_of_mem_ledNames (by simp [IsSnake, isSnakeChar_iff]) hword
    · exact isSnake_of_mem_fieldNames hword
    · simp [IsSnake, isSnakeChar_iff]
  have hhas : (ledNames "has_" names).Disjoint ["from_bytes", "as_message"] := by
    intro x hx
    obtain ⟨v, -, rfl⟩ := List.mem_map.1 hx
    simp [Identifier.led, Identifier.plain, ← String.toList_inj]
  have hfields : (fieldNames names ++ ["from_bytes", "as_message"]).Nodup ↔
      names.Pairwise (fun v w => ¬Alike (snakeCase v) (snakeCase w)) ∧
        ∀ v ∈ names, snakeCase v ∉ ["from_bytes", "as_message"] := by
    rw [fieldNames, nodup_map_append_iff hfixed, ← fieldNames, nodup_fieldNames_iff]
    exact and_congr_right fun _ =>
      forall₂_congr fun v _ => not_congr (Identifier.name_ofName_mem_iff hfree)
  -- Fields that are kept apart differ in snake case, so their constants and functions do.
  have hdiffer : names.Pairwise (fun v w => ¬Alike (snakeCase v) (snakeCase w)) →
      names.Pairwise fun v w => snakeCase v ≠ snakeCase w :=
    List.Pairwise.imp fun hne heq => hne (.inl heq)
  rw [hfamilies.nodup_iff, List.nodup_append', List.nodup_append', List.disjoint_append_right,
    nodup_tagNames_iff hword, nodup_ledNames_iff, hfields, disjoint_ledNames_has_iff]
  constructor
  · rintro ⟨-, ⟨-, ⟨hapart, hfunctions⟩, hgetters, -⟩, -⟩
    exact ⟨hapart, hfunctions, hgetters⟩
  · rintro ⟨hapart, hfunctions, hgetters⟩
    exact ⟨hdiffer hapart, ⟨hdiffer hapart, ⟨hapart, hfunctions⟩, hgetters, hhas⟩, htags⟩

/-- A builder begins a field or sets it, by functions. -/
theorem Scope.sublist_setters (type : Identifier) (f : Field TypeUse UInt16) :
    ((s.setters type f).map fun d => d.name.name).Sublist
      [(Identifier.led "begin_" f.name).name, (Identifier.led "set_" f.name).name] ∧
      ∀ d ∈ s.setters type f, d.isType = false := by
  rw [setters.eq_def]
  dsimp only
  split
  · simp [beginMessage, Declaration.name]
  · split <;> simp [setValue, Declaration.name]
  · split <;> simp [beginList, setList, Declaration.name]
  · simp [beginList, Declaration.name]

/-- **The names in a builder differ** if those of the fields do in snake case. -/
theorem Scope.nodup_builder {fields : List (Field TypeUse UInt16)} (type : Identifier)
    (h : (fields.map Field.name).Pairwise fun v w => snakeCase v ≠ snakeCase w) :
    (["new", "from_writer"] ++ (fields.flatMap (s.setters type)).map (fun d => d.name.name) ++
      ["end"]).Nodup := by
  have hsublist : ((fields.flatMap (s.setters type)).map fun d => d.name.name).Sublist
      ((fields.map Field.name).flatMap fun v =>
        [(Identifier.led "begin_" v).name, (Identifier.led "set_" v).name]) := by
    rw [List.map_flatMap, List.flatMap_map]
    exact List.Sublist.flatMap_right _ fun f _ => (sublist_setters type f).1
  have hleads : ∀ x ∈ (fields.map Field.name).flatMap fun v =>
      [(Identifier.led "begin_" v).name, (Identifier.led "set_" v).name],
      x ∉ ["end", "new", "from_writer"] := by
    intro x hx
    obtain ⟨v, -, hv⟩ := List.mem_flatMap.1 hx
    rcases List.mem_pair.1 hv with rfl | rfl <;>
      simp [Identifier.led, Identifier.plain, ← String.toList_inj]
  have hall : ((fields.map Field.name).flatMap fun v =>
      [(Identifier.led "begin_" v).name, (Identifier.led "set_" v).name]).Nodup := by
    rw [(flatMap_pair_perm _ _ _).nodup_iff, List.nodup_append']
    refine ⟨(nodup_ledNames_iff "begin_").2 h, (nodup_ledNames_iff "set_").2 h, fun x hx hmem => ?_⟩
    obtain ⟨v, -, rfl⟩ := List.mem_map.1 hx
    obtain ⟨w, -, heq⟩ := List.mem_map.1 hmem
    simp [Identifier.led, Identifier.plain, ← String.toList_inj] at heq
  have hmoved : (["new", "from_writer"] ++
      (fields.flatMap (s.setters type)).map (fun d => d.name.name) ++ ["end"]).Perm
      ((fields.flatMap (s.setters type)).map (fun d => d.name.name) ++
        ["end", "new", "from_writer"]) := by
    rw [List.append_assoc]
    exact List.perm_append_comm.trans (by rw [List.append_assoc]; rfl)
  rw [hmoved.nodup_iff, List.nodup_append']
  exact ⟨hall.sublist hsublist, by decide, fun x hx => hleads x (hsublist.subset hx)⟩

/-- **What is made of the fields of a message.** -/
theorem Scope.message_apart_iff {name : String} {fields : List (Field TypeUse UInt16)}
    (hword : ∀ v ∈ fields.map Field.name, isName v) :
    (∀ i ∈ s.messageItems name fields, i.Apart) ↔
      MembersApart (.message fields : Body TypeUse UInt16) := by
  refine (List.forall_mem_cons.trans (and_iff_right ?_)).trans ?_
  · exact List.nodup_singleton _
  refine List.forall_mem_cons.trans ((and_congr_left fun _ => ?_).trans (and_iff_left_of_imp ?_))
  · have hgetters : ∀ d ∈ fields.flatMap s.getters, d.isType = false := by
      intro d hd
      obtain ⟨f, -, hf⟩ := List.mem_flatMap.1 hd
      rcases List.mem_pair.1 hf with rfl | rfl <;> rfl
    rw [Item.Apart, Declaration.apart_iff, List.map_append, List.map_append, List.map_map,
      List.map_flatMap]
    · have hiff := nodup_view_iff hword
      rw [tagNames, List.map_map, List.flatMap_map] at hiff
      exact hiff
    · simpa [or_imp, forall_and] using hgetters
  · rintro ⟨hfields, -⟩
    have hbuilder := s.nodup_builder (.ofName name) (hfields.imp fun hne heq => hne (.inl heq))
    refine List.forall_mem_cons.2 ⟨apart_decoder .., List.forall_mem_cons.2 ⟨?_, ?_⟩⟩
    · exact List.nodup_singleton _
    · have hsetters : ∀ d ∈ fields.flatMap (s.setters (.ofName name)), d.isType = false := by
        intro d hd
        obtain ⟨f, -, hf⟩ := List.mem_flatMap.1 hd
        exact (sublist_setters _ f).2 d hf
      rw [List.forall_mem_singleton, Item.Apart, Declaration.apart_iff, List.map_append,
        List.map_append]
      · exact hbuilder
      · simpa [or_imp, forall_and] using hsetters

/-- **When nothing clashes within the bindings of a definition**: if its members are kept apart. -/
theorem Scope.definitionItems_apart_iff {d : Declared TypeUse} (hword : d.Worded)
    (hnames : d.body.names.Nodup) :
    (∀ i ∈ s.definitionItems d, i.Apart) ∧ s.ShadowFree d.body ↔ MembersApart d.body := by
  obtain ⟨name, file, body⟩ := d
  cases body with
  | enum values => exact (and_iff_left trivial).trans (enum_apart_iff hnames)
  | struct parameters => exact struct_apart_iff hword.2
  | message fields => exact (and_iff_left trivial).trans (message_apart_iff hword.2)
  | service methods => exact (and_iff_left trivial).trans (service_apart_iff hword.2)

end Members

end Backwire.Bindings
