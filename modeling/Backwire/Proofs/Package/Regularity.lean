import Backwire.Proofs.Package.Occurrences
import Backwire.Proofs.Package.Containment

/-!
# Rules of definitions

A body is regular if the names of its members differ, and its tags or numbers, and the names of the
parameters of each of its methods, and an enum has a value of number zero (`Body.Regular`). Whether
it is does not depend on what its types are made of or on what its tags are stored in, so a
definition of a compiled package is regular if it is so in its file (`Body.regular_map`).

The rules of structs are about a session: a field has a fixed size or is of a struct, and no struct
contains itself (`Session.StructsFit`). A check decides a rule, and its errors name what breaks it
(`Decides`); checks are put together as rules are, up to that of a whole package
(`checkRules_decides`).
-/

namespace Backwire.Schema

namespace Body

variable {τ σ ι κ : Type}

/-- The names of the members of a body. -/
def names : Body τ ι → List String
  | enum values => values.map EnumValue.name
  | message fields => fields.map Field.name
  | struct fields => fields.map Parameter.name
  | service methods => methods.map Method.name

/-- **What has to differ in a body differs**, and an enum has a value of number zero. -/
def Regular (b : Body τ ι) : Prop :=
  b.names.Nodup ∧
    match b with
    | enum values => (values.map EnumValue.number).Nodup ∧ ∃ v ∈ values, v.number = 0
    | message fields => (fields.map Field.tag).Nodup
    | struct _ => True
    | service methods => ∀ m ∈ methods,
      (m.args.map Parameter.name).Nodup ∧ (m.results.map Parameter.name).Nodup

theorem names_map (leaf : τ → σ) (tag : ι → κ) (b : Body τ ι) :
    (b.map leaf tag).names = b.names := by
  cases b with
  | enum => rfl
  | message fields => exact List.map_map
  | struct fields => exact List.map_map
  | service methods => exact List.map_map

/-- **Leaves do not matter to what has to differ**, nor do tags as long as they are told apart. -/
theorem regular_map (leaf : τ → σ) {tag : ι → κ} (htag : Function.Injective tag) (b : Body τ ι) :
    (b.map leaf tag).Regular ↔ b.Regular := by
  unfold Regular
  rw [names_map]
  refine and_congr_right fun _ => ?_
  cases b with
  | enum => exact Iff.rfl
  | struct => exact Iff.rfl
  | message fields =>
    have htags :
        (fields.map (Field.map leaf tag)).map Field.tag = (fields.map Field.tag).map tag := by
      rw [List.map_map, List.map_map]
      rfl
    change ((fields.map (Field.map leaf tag)).map Field.tag).Nodup ↔ _
    rw [htags, List.nodup_map_iff htag]
  | service methods =>
    have hnames (ps : List (Parameter τ)) :
        (ps.map (Parameter.map leaf)).map Parameter.name = ps.map Parameter.name := List.map_map
    change (∀ m ∈ methods.map (Method.map leaf), _) ↔ _
    simp only [List.forall_mem_map, Method.map, hnames]

end Body

end Backwire.Schema

namespace Backwire.Package

open Schema
open Wire (bind_eq_ok_iff bind_eq_error_iff pure_eq_ok_iff)

/-! ### Checks -/

section Checks

variable {α κ : Type} {r r' : Except CompileError Unit} {P P' : Prop}
  {Fault Fault' : CompileError → Prop}

/-- **A check decides a rule**, and an error of it is a fault. -/
structure Decides (r : Except CompileError Unit) (P : Prop) (Fault : CompileError → Prop) :
    Prop where
  ok : r = .ok () ↔ P
  error : ∀ err, r = .error err → Fault err

namespace Decides

theorem done : Decides (.ok ()) True Fault :=
  ⟨iff_of_true rfl trivial, fun _ herr => nomatch herr⟩

theorem mono (h : Decides r P Fault) (hP : P ↔ P') (hFault : ∀ err, Fault err → Fault' err) :
    Decides r P' Fault' :=
  ⟨h.ok.trans hP, fun err herr => hFault err (h.error err herr)⟩

/-- One check after another. -/
theorem bind (h : Decides r P Fault) (h' : Decides r' P' Fault) :
    Decides (r >>= fun _ => r') (P ∧ P') Fault := by
  constructor
  · rw [bind_eq_ok_iff, ← h.ok, ← h'.ok]
    exact ⟨fun ⟨_, hr, hr'⟩ => ⟨hr, hr'⟩, fun ⟨hr, hr'⟩ => ⟨(), hr, hr'⟩⟩
  · intro err herr
    rcases bind_eq_error_iff.1 herr with herr | ⟨_, -, herr⟩
    · exact h.error err herr
    · exact h'.error err herr

/-- The same check of every member of a list. -/
theorem forM {f : α → Except CompileError Unit} {Q : α → Prop} {as : List α}
    (h : ∀ a ∈ as, Decides (f a) (Q a) Fault) : Decides (as.forM f) (∀ a ∈ as, Q a) Fault := by
  induction as with
  | nil => exact done.mono (by simp) fun _ h => h
  | cons a as ih =>
    obtain ⟨ha, has⟩ := List.forall_mem_cons.1 h
    exact (ha.bind (ih has)).mono List.forall_mem_cons.symm fun _ h => h

/-- A check for repeats, and another one if there is none. -/
theorem firstRepeat [DecidableEq κ] (key : α → κ) {items : List α} {report : α → CompileError}
    (hsome : ∀ a, firstRepeat? key [] items = some a → r' = .error (report a))
    (hnone : firstRepeat? key [] items = none → r' = r) (h : Decides r P Fault)
    (hreport : ∀ a ∈ items, List.Duplicate (key a) (items.map key) → Fault (report a)) :
    Decides r' ((items.map key).Nodup ∧ P) Fault := by
  rw [← firstRepeat?_nil_eq_none_iff]
  cases hrepeat : firstRepeat? key [] items with
  | none =>
    rw [hnone hrepeat]
    exact h.mono (by simp) fun _ h => h
  | some a =>
    obtain ⟨ha, hduplicate⟩ := duplicate_of_firstRepeat? hrepeat
    rw [hsome a hrepeat]
    refine ⟨by simp, fun err herr => ?_⟩
    cases herr
    exact hreport a ha hduplicate

end Decides

end Checks

/-! ### Names, tags and numbers -/

section Regular

variable {τ : Type} {location : Location}

/-- **What an error names that breaks a rule of a body.** -/
inductive Irregular (location : Location) : Body τ Int → CompileError → Prop where
  /-- Two members have this name. -/
  | member {b : Body τ Int} {name : String} (h : List.Duplicate name b.names) :
      Irregular location b (.duplicateName (location.member name) name)
  /-- Two arguments or two results of a method have this name. -/
  | parameter {methods : List (Method τ)} {m : Method τ} {ps : List (Parameter τ)} {name : String}
      (hm : m ∈ methods) (hps : ps = m.args ∨ ps = m.results)
      (h : List.Duplicate name (ps.map Parameter.name)) :
      Irregular location (.service methods)
        (.duplicateName (location.member (m.name ++ "." ++ name)) name)
  /-- The tag of a field is also that of another one. -/
  | tag {fields : List (Schema.Field τ Int)} {f : Schema.Field τ Int} (hf : f ∈ fields)
      (h : List.Duplicate f.tag (fields.map Field.tag)) :
      Irregular location (.message fields) (.duplicateTag (location.member f.name) f.tag)
  /-- The number of a value is also that of another one. -/
  | number {values : List EnumValue} {v : EnumValue} (hv : v ∈ values)
      (h : List.Duplicate v.number (values.map EnumValue.number)) :
      Irregular location (.enum values) (.duplicateTag (location.member v.name) v.number.toInt)
  /-- No value of an enum has the number zero. -/
  | zero {values : List EnumValue} (h : ∀ v ∈ values, v.number ≠ 0) :
      Irregular location (.enum values) (.missingZero location)

/-- A fault of a body is one whatever its types are made of. -/
theorem Irregular.map {σ : Type} (leaf : τ → σ) {b : Body τ Int} {err : CompileError}
    (h : Irregular location b err) : Irregular location (b.map leaf id) err := by
  cases h with
  | member h => exact .member ((Body.names_map leaf id b).symm ▸ h)
  | @parameter methods m ps name hm hps h =>
    have hnames : (ps.map (Parameter.map leaf)).map Parameter.name = ps.map Parameter.name :=
      List.map_map
    have hps' : ps.map (Parameter.map leaf) = (m.map leaf).args ∨
        ps.map (Parameter.map leaf) = (m.map leaf).results := by
      rcases hps with rfl | rfl
      · exact .inl rfl
      · exact .inr rfl
    exact .parameter (List.mem_map_of_mem hm) hps' (hnames ▸ h)
  | @tag fields f hf h =>
    have htags : (fields.map (Field.map leaf id)).map Field.tag = fields.map Field.tag :=
      List.map_map
    exact .tag (List.mem_map_of_mem hf) (f := f.map leaf id) (htags ▸ h)
  | number hv h => exact .number hv h
  | zero h => exact .zero h

theorem requireDistinct_decides {α : Type} {name : α → String} {items : List α}
    {Fault : CompileError → Prop} (hreport : ∀ n, List.Duplicate n (items.map name) →
      Fault (.duplicateName (location.member n) n)) :
    Decides (requireDistinct location name items) (items.map name).Nodup Fault := by
  refine (Decides.done.firstRepeat name (fun a h => ?_) (fun h => ?_) fun a _ h =>
    hreport (name a) h).mono (and_iff_left trivial) fun _ h => h
  · rw [requireDistinct, h]
  · rw [requireDistinct, h]

theorem checkEnum_decides (values : List EnumValue) :
    Decides (checkEnum location values) (Body.enum values : Body TypeUse UInt16).Regular
      (Irregular location ((Body.enum values : Body TypeUse UInt16).numbered tagNumber)) := by
  have hzero : Decides (if values.any fun v => v.number == 0 then .ok () else
      .error (.missingZero location)) (∃ v ∈ values, v.number = 0)
      (Irregular location (Body.enum values : Body TypeUse Int)) := by
    cases hany : values.any fun v => v.number == 0 with
    | true => exact Decides.done.mono (by simpa using hany) fun _ h => h
    | false =>
      refine ⟨by simpa using hany, fun err herr => ?_⟩
      cases herr
      exact .zero (by simpa using hany)
  refine (requireDistinct_decides fun _ h => .member h).bind
    (hzero.firstRepeat EnumValue.number (fun v h => ?_) (fun h => ?_) fun _ hv h =>
      .number hv h)
  · rw [h]
    rfl
  · rw [h]
    rfl

theorem checkMessage_decides (fields : List (Schema.Field TypeUse UInt16)) :
    Decides (checkMessage location fields) (Body.message fields).Regular
      (Irregular location ((Body.message fields).numbered tagNumber)) := by
  have hnames : (Body.message (fields.map (Field.map id tagNumber))).names =
      fields.map Field.name := Body.names_map id tagNumber (.message fields)
  have htags : (fields.map (Field.map id tagNumber)).map Field.tag =
      (fields.map Field.tag).map tagNumber := by
    rw [List.map_map, List.map_map]
    rfl
  have hduplicate {f : Schema.Field TypeUse UInt16} (hf : f ∈ fields)
      (h : List.Duplicate f.tag (fields.map Field.tag)) : Irregular location
        ((Body.message fields).numbered tagNumber)
        (.duplicateTag (location.member f.name) f.tag.toNat) := by
    refine .tag (List.mem_map_of_mem hf) (f := f.map id tagNumber) ?_
    rw [htags, List.duplicate_iff_sublist]
    exact (List.duplicate_iff_sublist.1 h).map tagNumber
  refine (requireDistinct_decides fun n h => .member (hnames ▸ h)).bind
    ((Decides.done.firstRepeat Field.tag (fun f h => ?_) (fun h => ?_) fun f hf h =>
      hduplicate hf h).mono (and_iff_left trivial) fun _ h => h)
  · rw [h]
    rfl
  · rw [h]
    rfl

theorem checkParameters_decides {methods : List (Method TypeUse)} {m : Method TypeUse}
    {ps : List (Parameter TypeUse)} (hm : m ∈ methods) (hps : ps = m.args ∨ ps = m.results) :
    Decides (checkParameters location m.name ps) (ps.map Parameter.name).Nodup
      (Irregular location (.service methods)) := by
  refine (Decides.done.firstRepeat Parameter.name (fun p h => ?_) (fun h => ?_)
    fun p _ h => .parameter hm hps h).mono (and_iff_left trivial) fun _ h => h
  · rw [checkParameters, h]
  · rw [checkParameters, h]

theorem checkService_decides (methods : List (Method TypeUse)) :
    Decides (checkService location methods) (Body.service methods : Body TypeUse UInt16).Regular
      (Irregular location ((Body.service methods).numbered tagNumber)) := by
  have hsame : ((Body.service methods : Body TypeUse UInt16).numbered tagNumber) =
      .service methods := by
    have hparameters (ps : List (Parameter TypeUse)) : ps.map (Parameter.map id) = ps :=
      List.map_id _
    have hmethod (m : Method TypeUse) : m.map id = m := by
      rw [Method.map, hparameters, hparameters]
    exact congrArg Body.service ((List.map_congr_left fun m _ => hmethod m).trans (List.map_id _))
  rw [hsame]
  refine (requireDistinct_decides fun _ h => .member h).bind (.forM fun m hm => ?_)
  exact (checkParameters_decides hm (.inl rfl)).bind (checkParameters_decides hm (.inr rfl))

end Regular

/-! ### Structs -/

section Structs

variable {s : Session} {self : DefinitionId} {name : String} {location : Location} {number : Nat}
  {c : Compiled}

/-- **The types of a fixed size**: builtin ones, and structs. -/
inductive Fixed : Listed TypeUse → Prop where
  | builtin {b : Wire.Builtin} (h : b.isFixedSize = true) : Fixed ⟨0, .builtin b⟩
  | struct {r : Reference} {d : DefinitionId} {link? : Option Nat} :
    Fixed ⟨0, .named r ⟨.struct, d, link?⟩⟩

/-- **What is wrong with a type of a field** of the struct `self`, whose name is `name`. -/
inductive FieldFault (s : Session) (self : DefinitionId) (name : String) :
    Listed TypeUse → StructFault → Prop where
  | containsItself {r : Reference} {d : DefinitionId} {link? : Option Nat}
      (h : Relation.ReflTransGen s.Holds d self) :
      FieldFault s self name ⟨0, .named r ⟨.struct, d, link?⟩⟩ (.containsItself name)
  | variableSize {b : Wire.Builtin} (h : b.isFixedSize = false) :
      FieldFault s self name ⟨0, .builtin b⟩ (.variableSize b)
  | enum {r : Reference} {d : DefinitionId} {link? : Option Nat} :
      FieldFault s self name ⟨0, .named r ⟨.enum, d, link?⟩⟩ .enum
  | message {r : Reference} {d : DefinitionId} {link? : Option Nat} :
      FieldFault s self name ⟨0, .named r ⟨.message, d, link?⟩⟩ .message
  | list {depth : Nat} {leaf : TypeUse} : FieldFault s self name ⟨depth + 1, leaf⟩ .list

theorem structFault?_eq_some {t : Listed TypeUse} {fault : StructFault}
    (h : structFault? s self name t = some fault) : FieldFault s self name t fault := by
  unfold structFault? at h
  split at h
  · split at h
    · cases h
    · next hsize =>
      cases h
      exact .variableSize (Bool.eq_false_of_not_eq_true hsize)
  · split at h
    · next hreaches =>
      cases h
      exact .containsItself (Session.structReaches_iff.1 hreaches)
    · cases h
  · cases h
    exact .enum
  · cases h
    exact .message
  · cases h
    exact .list

/-- A field has no fault if it has a fixed size and does not lead back to its struct. -/
theorem structFault?_eq_none_iff {t : Listed TypeUse} :
    structFault? s self name t = none ↔
      Fixed t ∧ ∀ d, structOf? t = some d → ¬ Relation.ReflTransGen s.Holds d self := by
  constructor
  · intro h
    unfold structFault? at h
    split at h
    · next b =>
      split at h
      · next hsize => exact ⟨.builtin hsize, nofun⟩
      · cases h
    · next d _ =>
      split at h
      · cases h
      · next hreaches =>
        refine ⟨.struct, fun d' hd hback => ?_⟩
        cases hd
        exact hreaches (Session.structReaches_iff.2 hback)
    · cases h
    · cases h
    · cases h
  · rintro ⟨hfixed, hback⟩
    cases hfixed with
    | builtin h => exact if_pos h
    | struct =>
      exact if_neg fun hreaches => hback _ rfl (Session.structReaches_iff.1 hreaches)

/-- **A struct that holds values of a fixed size and does not contain itself.** -/
def Session.StructFits (s : Session) (self : DefinitionId) (fields : List (Parameter TypeUse)) :
    Prop :=
  (∀ f ∈ fields, Fixed f.type) ∧ ¬ Relation.TransGen s.Holds self self

theorem checkStruct_decides {d : Declared TypeUse} {fields : List (Parameter TypeUse)}
    (hself : s.definition? self = some d) (hbody : d.body = .struct fields)
    {Fault : CompileError → Prop}
    (hname : ∀ n, List.Duplicate n (fields.map Parameter.name) →
      Fault (.duplicateName (location.member n) n))
    (hfield : ∀ f ∈ fields, ∀ fault, FieldFault s self name f.type fault →
      Fault (.invalidStructField (location.member f.name) fault)) :
    Decides (checkStruct s self name location fields)
      ((Body.struct fields : Body TypeUse UInt16).Regular ∧ s.StructFits self fields) Fault := by
  have hloop : (∀ f ∈ fields, ∀ d, structOf? f.type = some d →
      ¬ Relation.ReflTransGen s.Holds d self) ↔ ¬ Relation.TransGen s.Holds self self := by
    rw [Relation.TransGen.head'_iff]
    constructor
    · rintro h ⟨b, ⟨d', fields', hd', hbody', f, hf, hb⟩, hback⟩
      cases hself.symm.trans hd'
      cases hbody.symm.trans hbody'
      exact h f hf b hb hback
    · intro h f hf b hb hback
      exact h ⟨b, ⟨d, fields, hself, hbody, f, hf, hb⟩, hback⟩
  refine ((requireDistinct_decides hname).bind (Decides.forM
    (Q := fun f => structFault? s self name f.type = none) fun f hf => ?_)).mono ?_ fun _ h => h
  · cases hfault : structFault? s self name f.type with
    | none => exact Decides.done.mono (by simp) fun _ h => h
    | some fault =>
      refine ⟨by simp, fun err herr => ?_⟩
      cases herr
      exact hfield f hf fault (structFault?_eq_some hfault)
  · simp only [structFault?_eq_none_iff, forall₂_and, hloop]
    exact and_congr_left fun _ => (and_iff_left trivial).symm

/-- **Every struct of a package fits**: it holds values of a fixed size, and does not contain
itself. -/
def Session.StructsFit (s : Session) (number : Nat) (c : Compiled) : Prop :=
  ∀ i d fields, c.definitions[i]? = some d → d.body = .struct fields →
    s.StructFits ⟨number, i⟩ fields

/-- **What an error names that a package is refused with** once its types have been resolved. -/
inductive CheckFault (s : Session) (number : Nat) (c : Compiled) : CompileError → Prop where
  /-- A body is not regular. -/
  | body {d : Declared TypeUse} {err : CompileError} (hd : d ∈ c.definitions)
      (h : Irregular (c.locate d) (d.body.numbered tagNumber) err) : CheckFault s number c err
  /-- A struct has a field of a type that does not fit. -/
  | field {i : Nat} {d : Declared TypeUse} {fields : List (Parameter TypeUse)}
      {f : Parameter TypeUse} {fault : StructFault} (hd : c.definitions[i]? = some d)
      (hbody : d.body = .struct fields) (hf : f ∈ fields)
      (h : FieldFault s ⟨number, i⟩ d.name f.type fault) :
      CheckFault s number c (.invalidStructField ((c.locate d).member f.name) fault)

/-- **The definitions of a package are checked for all rules**, each in its place. -/
theorem checkRules_decides (hc : s.package? number = some c) :
    Decides (checkRules s number c)
      ((∀ d ∈ c.definitions, d.body.Regular) ∧ s.StructsFit number c)
      (CheckFault s number c) := by
  have hall : Decides (checkRules s number c) (∀ x ∈ c.definitions.zipIdx, x.1.body.Regular ∧
      ∀ fields, x.1.body = .struct fields → s.StructFits ⟨number, x.2⟩ fields)
      (CheckFault s number c) := by
    refine .forM fun ⟨d, i⟩ hx => ?_
    have hd : c.definitions[i]? = some d := List.mem_zipIdx_iff_getElem?.1 hx
    have hmem := List.mem_of_getElem? hd
    obtain ⟨name, file, body⟩ := d
    cases body with
    | enum values =>
      exact (checkEnum_decides values).mono (by simp) fun _ h => .body hmem h
    | message fields =>
      exact (checkMessage_decides fields).mono (by simp) fun _ h => .body hmem h
    | service methods =>
      exact (checkService_decides methods).mono (by simp) fun _ h => .body hmem h
    | struct fields =>
      have hself : s.definition? ⟨number, i⟩ = some ⟨name, file, .struct fields⟩ := by
        rw [Session.definition?, hc]
        exact hd
      refine (checkStruct_decides hself rfl (fun n h => ?_) fun f hf fault h =>
        .field hd rfl hf h).mono (by simp) fun _ h => h
      exact .body hmem (.member ((Body.names_map id tagNumber (.struct fields)).symm ▸ h))
  refine hall.mono ?_ fun _ h => h
  constructor
  · intro h
    refine ⟨fun d hd => ?_, fun i d fields hd hbody => ?_⟩
    · obtain ⟨i, hi⟩ := List.mem_iff_getElem?.1 hd
      exact (h (d, i) (List.mem_zipIdx_iff_getElem?.2 hi)).1
    · exact (h (d, i) (List.mem_zipIdx_iff_getElem?.2 hd)).2 fields hbody
  · rintro ⟨hregular, hfit⟩ ⟨d, i⟩ hx
    have hd := List.mem_zipIdx_iff_getElem?.1 hx
    exact ⟨hregular d (List.mem_of_getElem? hd), fun fields => hfit i d fields hd⟩

end Structs

end Backwire.Package
