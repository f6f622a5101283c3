import Backwire.Proofs.Package.Drafting
import Mathlib.Data.List.Duplicate

/-!
# What a draft is checked for

A draft is made of files that have been parsed. Nothing but repeats and tags can keep it from being
made: in each file the local names of imports differ and so do the names of options, the names of
definitions differ in the whole package, and the tags of fields fit (`DraftRules`). Where one of
these does not hold, the error names a repeat or a tag that is there (`DraftFault`).

The definitions of a draft are those of the files, one by one. `Body.map` relates a body to the same
body with other leaves and other tags: a definition is the same in a file, in a draft and in a
compiled package but for what its types and its tags are made of.
-/

namespace Backwire.Schema

variable {τ σ ι κ : Type}

/-- The same type with another leaf. -/
def Listed.map (leaf : τ → σ) (t : Listed τ) : Listed σ := ⟨t.depth, leaf t.leaf⟩

/-- The same field with another type and another tag. -/
def Field.map (leaf : τ → σ) (tag : ι → κ) (f : Field τ ι) : Field σ κ :=
  ⟨f.name, f.type.map leaf, tag f.tag⟩

/-- The same parameter with another type. -/
def Parameter.map (leaf : τ → σ) (p : Parameter τ) : Parameter σ := ⟨p.name, p.type.map leaf⟩

/-- The same method with other types. -/
def Method.map (leaf : τ → σ) (m : Method τ) : Method σ :=
  ⟨m.name, m.args.map (Parameter.map leaf), m.results.map (Parameter.map leaf)⟩

namespace Body

/-- The same body with other leaves of its types and other tags of its fields. -/
def map (leaf : τ → σ) (tag : ι → κ) : Body τ ι → Body σ κ
  | enum values => enum values
  | message fields => message (fields.map (Field.map leaf tag))
  | struct fields => struct (fields.map (Parameter.map leaf))
  | service methods => service (methods.map (Method.map leaf))

/-- A body with its tags as numbers, whatever they are stored in. -/
def numbered (number : ι → Int) (b : Body τ ι) : Body τ Int := b.map id number

/-- Every tag of a message is from 1 to 65535. -/
def TagsFit : Body τ Int64 → Prop
  | message fields => ∀ f ∈ fields, 1 ≤ f.tag.toInt ∧ f.tag.toInt ≤ 65535
  | _ => True

end Body

end Backwire.Schema

namespace Backwire.Package

open Schema
open Wire (bind_eq_ok_iff bind_eq_error_iff pure_eq_ok_iff)

/-! ### Calculations that stop -/

section Stopping

variable {α β ε : Type}

/-- **A calculation over a list stops** at the first member that gives an error. -/
def StopsAt (f : α → Except ε β) (as : List α) (err : ε) : Prop :=
  ∃ before a after, as = before ++ a :: after ∧ (∀ b ∈ before, ∃ c, f b = .ok c) ∧ f a = .error err

theorem stopsAt_nil {f : α → Except ε β} {err : ε} : ¬ StopsAt f [] err := by
  rintro ⟨before, a, after, h, -⟩
  cases before <;> cases h

theorem stopsAt_cons {f : α → Except ε β} {a : α} {as : List α} {err : ε} :
    StopsAt f (a :: as) err ↔ f a = .error err ∨ (∃ b, f a = .ok b) ∧ StopsAt f as err := by
  constructor
  · rintro ⟨before, x, after, h, hbefore, hx⟩
    cases before with
    | nil =>
      cases h
      exact .inl hx
    | cons b before =>
      cases h
      obtain ⟨hb, hbefore⟩ := List.forall_mem_cons.1 hbefore
      exact .inr ⟨hb, before, x, after, rfl, hbefore, hx⟩
  · rintro (h | ⟨hb, before, x, after, rfl, hbefore, hx⟩)
    · exact ⟨[], a, as, rfl, nofun, h⟩
    · exact ⟨a :: before, x, after, rfl, List.forall_mem_cons.2 ⟨hb, hbefore⟩, hx⟩

theorem mapM_eq_error_iff {f : α → Except ε β} {as : List α} {err : ε} :
    as.mapM f = .error err ↔ StopsAt f as err := by
  induction as with
  | nil =>
    simp only [List.mapM_nil, stopsAt_nil, iff_false]
    exact nofun
  | cons a as ih =>
    rw [List.mapM_cons, bind_eq_error_iff, stopsAt_cons, ← ih]
    refine or_congr_right ?_
    constructor
    · rintro ⟨b, hb, h⟩
      rcases bind_eq_error_iff.1 h with h | ⟨bs, -, h⟩
      · exact ⟨⟨b, hb⟩, h⟩
      · cases h
    · rintro ⟨⟨b, hb⟩, h⟩
      exact ⟨b, hb, bind_eq_error_iff.2 (.inl h)⟩

theorem StopsAt.exists_mem {f : α → Except ε β} {as : List α} {err : ε} (h : StopsAt f as err) :
    ∃ a ∈ as, f a = .error err := by
  obtain ⟨before, a, after, rfl, -, ha⟩ := h
  exact ⟨a, List.mem_append_right _ List.mem_cons_self, ha⟩

/-- A calculation over a list gives a result if it does not stop. -/
theorem exists_mapM_eq_ok_iff {f : α → Except ε β} {as : List α} :
    (∃ bs, as.mapM f = .ok bs) ↔ ∀ a ∈ as, ∃ b, f a = .ok b := by
  constructor
  · rintro ⟨bs, hbs⟩ a ha
    obtain ⟨b, -, hb⟩ := exists_of_forall₂ (mapM_eq_ok_iff.1 hbs).flip ha
    exact ⟨b, hb⟩
  · intro h
    cases hmap : as.mapM f with
    | ok bs => exact ⟨bs, rfl⟩
    | error err =>
      obtain ⟨a, ha, herr⟩ := (mapM_eq_error_iff.1 hmap).exists_mem
      obtain ⟨b, hb⟩ := h a ha
      cases herr.symm.trans hb

end Stopping

/-! ### Repeats -/

/-- What stands in two lists stands twice in both together. -/
theorem duplicate_append {κ : Type} {x : κ} {xs ys : List κ} (hx : x ∈ xs) (hy : x ∈ ys) :
    List.Duplicate x (xs ++ ys) := by
  rw [List.duplicate_iff_sublist]
  exact (List.singleton_sublist.2 hx).append (List.singleton_sublist.2 hy)

section Repeats

variable {α κ : Type} [DecidableEq κ] {key : α → κ} {seen : List κ} {items : List α} {a : α}

theorem firstRepeat?_eq_none_iff :
    firstRepeat? key seen items = none ↔ (∀ a ∈ items, key a ∉ seen) ∧ (items.map key).Nodup := by
  induction items generalizing seen with
  | nil => simp [firstRepeat?]
  | cons a items ih =>
    rw [firstRepeat?, List.map_cons, List.nodup_cons, List.forall_mem_cons]
    by_cases h : key a ∈ seen
    · simp [h]
    · rw [if_neg h, ih]
      constructor
      · rintro ⟨hfresh, hnodup⟩
        refine ⟨⟨h, fun b hb hseen => hfresh b hb (List.mem_cons_of_mem _ hseen)⟩, ?_, hnodup⟩
        intro hmem
        obtain ⟨b, hb, hkey⟩ := List.mem_map.1 hmem
        exact hfresh b hb (hkey ▸ List.mem_cons_self)
      · rintro ⟨⟨-, hfresh⟩, hmem, hnodup⟩
        refine ⟨fun b hb hseen => ?_, hnodup⟩
        rcases List.mem_cons.1 hseen with hkey | hseen
        · exact hmem (hkey ▸ List.mem_map_of_mem hb)
        · exact hfresh b hb hseen

theorem firstRepeat?_mem (h : firstRepeat? key seen items = some a) :
    a ∈ items ∧ (key a ∈ seen ∨ List.Duplicate (key a) (items.map key)) := by
  induction items generalizing seen with
  | nil => cases h
  | cons b items ih =>
    rw [firstRepeat?] at h
    split at h
    · next hseen =>
      cases h
      exact ⟨List.mem_cons_self, .inl hseen⟩
    · obtain ⟨hmem, hrepeat⟩ := ih h
      refine ⟨List.mem_cons_of_mem _ hmem, ?_⟩
      rw [List.map_cons]
      rcases hrepeat with hseen | hrepeat
      · rcases List.mem_cons.1 hseen with hkey | hseen
        · right
          rw [← hkey]
          exact .cons_mem (List.mem_map_of_mem hmem)
        · exact .inl hseen
      · exact .inr (.cons_duplicate hrepeat)

/-- **A repeat is found if there is one.** -/
theorem firstRepeat?_nil_eq_none_iff :
    firstRepeat? key [] items = none ↔ (items.map key).Nodup := by
  simp [firstRepeat?_eq_none_iff]

theorem duplicate_of_firstRepeat? (h : firstRepeat? key [] items = some a) :
    a ∈ items ∧ List.Duplicate (key a) (items.map key) := by
  obtain ⟨hmem, hrepeat⟩ := firstRepeat?_mem h
  exact ⟨hmem, hrepeat.resolve_left List.not_mem_nil⟩

end Repeats

section Distinct

variable {α : Type} {location : Location} {name : α → String} {items : List α} {err : CompileError}

theorem requireDistinct_eq_ok_iff :
    requireDistinct location name items = .ok () ↔ (items.map name).Nodup := by
  rw [← firstRepeat?_nil_eq_none_iff]
  unfold requireDistinct
  cases firstRepeat? name [] items <;> simp

/-- The error names a name that stands twice. -/
theorem duplicate_of_requireDistinct (h : requireDistinct location name items = .error err) :
    ∃ n, List.Duplicate n (items.map name) ∧ err = .duplicateName (location.member n) n := by
  unfold requireDistinct at h
  split at h
  · next a ha =>
    cases h
    exact ⟨name a, (duplicate_of_firstRepeat? ha).2, rfl⟩
  · cases h

end Distinct

/-! ### Definitions -/

/-- The tag of a field as a number. -/
def tagNumber (tag : UInt16) : Int := tag.toNat

theorem tagNumber_injective : Function.Injective tagNumber := by
  intro a b h
  exact UInt16.toNat_inj.1 (Int.ofNat.inj h)

theorem tagOf?_eq_some_iff {tag : Int64} {n : UInt16} :
    tagOf? tag = some n ↔ (1 ≤ tag.toInt ∧ tag.toInt ≤ 65535) ∧ tagNumber n = tag.toInt := by
  have hback (h : 1 ≤ tag.toInt ∧ tag.toInt ≤ 65535) :
      tagNumber tag.toInt.toNat.toUInt16 = tag.toInt := by
    have hlt : tag.toInt.toNat < 65536 := by omega
    unfold tagNumber
    rw [Nat.toUInt16, UInt16.toNat_ofNat_of_lt' hlt]
    omega
  unfold tagOf?
  constructor
  · intro h
    split at h
    · next hfits =>
      cases h
      exact ⟨hfits, hback hfits⟩
    · cases h
  · rintro ⟨hfits, hn⟩
    rw [if_pos hfits]
    exact congrArg some (tagNumber_injective ((hback hfits).trans hn.symm))

variable {location : Location} {err : CompileError}

theorem draftField_ok {f : Field TypeName Int64} {f' : Field TypeName UInt16}
    (h : draftField location f = .ok f') :
    (1 ≤ f.tag.toInt ∧ f.tag.toInt ≤ 65535) ∧ f'.map id tagNumber = f.map id Int64.toInt := by
  unfold draftField at h
  split at h
  · next tag htag =>
    obtain ⟨hfits, hnumber⟩ := tagOf?_eq_some_iff.1 htag
    cases h
    exact ⟨hfits, congrArg (Schema.Field.mk _ _) hnumber⟩
  · cases h

/-- **A body has a draft if its tags fit**, which is the same body. -/
theorem draftBody_ok {b : Body TypeName Int64} {b' : Body TypeName UInt16}
    (h : draftBody location b = .ok b') :
    b.TagsFit ∧ b'.numbered tagNumber = b.numbered Int64.toInt := by
  cases b with
  | enum => cases h; exact ⟨trivial, rfl⟩
  | struct => cases h; exact ⟨trivial, rfl⟩
  | service => cases h; exact ⟨trivial, rfl⟩
  | message fields =>
    obtain ⟨fields', hfields, h⟩ := bind_eq_ok_iff.1 h
    cases h
    have hall := (mapM_eq_ok_iff.1 hfields).imp fun f f' => draftField_ok
    refine ⟨fun f hf => ?_, congrArg Body.message ?_⟩
    · obtain ⟨f', -, hfits, -⟩ := exists_of_forall₂ hall.flip hf
      exact hfits
    · exact map_eq_map_of_forall₂ (hall.flip.imp fun f' f h => h.2)

theorem exists_draftBody (location : Location) {b : Body TypeName Int64} (h : b.TagsFit) :
    ∃ b', draftBody location b = .ok b' := by
  cases b with
  | enum => exact ⟨_, rfl⟩
  | struct => exact ⟨_, rfl⟩
  | service => exact ⟨_, rfl⟩
  | message fields =>
    obtain ⟨fields', hfields⟩ : ∃ fields', fields.mapM (draftField location) = .ok fields' := by
      refine exists_mapM_eq_ok_iff.2 fun f hf => ?_
      have htag : tagOf? f.tag = some f.tag.toInt.toNat.toUInt16 := if_pos (h f hf)
      exact ⟨_, by rw [draftField, htag]⟩
    exact ⟨.message fields', bind_eq_ok_iff.2 ⟨_, hfields, rfl⟩⟩

theorem draftBody_error {b : Body TypeName Int64} (h : draftBody location b = .error err) :
    ∃ fields, b = .message fields ∧ ∃ f ∈ fields, ¬ (1 ≤ f.tag.toInt ∧ f.tag.toInt ≤ 65535) ∧
      err = .invalidTag (location.member f.name) f.tag := by
  cases b with
  | enum => cases h
  | struct => cases h
  | service => cases h
  | message fields =>
    rcases bind_eq_error_iff.1 h with h | ⟨_, -, h⟩
    · obtain ⟨f, hf, herr⟩ := (mapM_eq_error_iff.1 h).exists_mem
      unfold draftField at herr
      split at herr
      · cases herr
      · next htag =>
        cases herr
        refine ⟨fields, rfl, f, hf, fun hfits => ?_, rfl⟩
        rw [tagOf?, if_pos hfits] at htag
        cases htag
    · cases h

/-- What a definition of a draft takes from one of the file of a number. -/
def DeclaredFrom (x : Nat × Definition) (d : Declared TypeName) : Prop :=
  d.name = x.2.name ∧ d.file = x.1 ∧ d.body.numbered tagNumber = x.2.body.numbered Int64.toInt

theorem draftDefinitions_ok {file : Nat} {taken : List String} {ds : List Definition}
    {es : List (Declared TypeName)} (h : draftDefinitions location file taken ds = .ok es) :
    List.Forall₂ (fun d e => DeclaredFrom (file, d) e) ds es := by
  induction ds generalizing taken es with
  | nil =>
    cases h
    exact .nil
  | cons d ds ih =>
    rw [draftDefinitions] at h
    split at h
    · cases h
    · obtain ⟨body, hbody, h⟩ := bind_eq_ok_iff.1 h
      obtain ⟨rest, hrest, h⟩ := bind_eq_ok_iff.1 h
      cases h
      exact .cons ⟨rfl, rfl, (draftBody_ok hbody).2⟩ (ih hrest)

/-- The definitions of a file are drafted if their names differ, from each other and from those that
are taken, and their tags fit. -/
theorem exists_draftDefinitions_iff (location : Location) (file : Nat) (taken : List String)
    {ds : List Definition} : (∃ es, draftDefinitions location file taken ds = .ok es) ↔
      (∀ d ∈ ds, d.name ∉ taken ∧ d.body.TagsFit) ∧ (ds.map Definition.name).Nodup := by
  induction ds generalizing taken with
  | nil => exact ⟨fun _ => ⟨nofun, List.nodup_nil⟩, fun _ => ⟨[], rfl⟩⟩
  | cons d ds ih =>
    have ih := ih (d.name :: taken)
    rw [List.forall_mem_cons, List.map_cons, List.nodup_cons]
    constructor
    · rintro ⟨es, h⟩
      rw [draftDefinitions] at h
      split at h
      · cases h
      · next htaken =>
        obtain ⟨body, hbody, h⟩ := bind_eq_ok_iff.1 h
        obtain ⟨rest, hrest, -⟩ := bind_eq_ok_iff.1 h
        obtain ⟨hds, hnodup⟩ := ih.1 ⟨rest, hrest⟩
        refine ⟨⟨⟨htaken, (draftBody_ok hbody).1⟩, fun d' hd' => ?_⟩, fun hmem => ?_, hnodup⟩
        · obtain ⟨hfresh, hfits⟩ := hds d' hd'
          exact ⟨fun hmem => hfresh (List.mem_cons_of_mem _ hmem), hfits⟩
        · obtain ⟨d', hd', hname⟩ := List.mem_map.1 hmem
          exact (hds d' hd').1 (hname ▸ List.mem_cons_self)
    · rintro ⟨⟨⟨htaken, hfits⟩, hds⟩, hmem, hnodup⟩
      obtain ⟨body, hbody⟩ := exists_draftBody (location.definition d.name) hfits
      have hfresh : ∀ d' ∈ ds, d'.name ∉ d.name :: taken := fun d' hd' h => by
        rcases List.mem_cons.1 h with hname | h
        · exact hmem (hname ▸ List.mem_map_of_mem hd')
        · exact (hds d' hd').1 h
      obtain ⟨rest, hrest⟩ := ih.2 ⟨fun d' hd' => ⟨hfresh d' hd', (hds d' hd').2⟩, hnodup⟩
      rw [draftDefinitions, if_neg htaken]
      exact ⟨_, bind_eq_ok_iff.2 ⟨body, hbody, bind_eq_ok_iff.2 ⟨rest, hrest, rfl⟩⟩⟩

/-- The error names a definition whose name is taken, or a tag that does not fit. -/
theorem draftDefinitions_error {file : Nat} {taken : List String} {ds : List Definition}
    (h : draftDefinitions location file taken ds = .error err) :
    (∃ d ∈ ds, (d.name ∈ taken ∨ List.Duplicate d.name (ds.map Definition.name)) ∧
      err = .duplicateName location d.name) ∨
    ∃ d ∈ ds, draftBody (location.definition d.name) d.body = .error err := by
  induction ds generalizing taken with
  | nil => cases h
  | cons d ds ih =>
    rw [draftDefinitions] at h
    split at h
    · next htaken =>
      cases h
      exact .inl ⟨d, List.mem_cons_self, .inl htaken, rfl⟩
    · rcases bind_eq_error_iff.1 h with h | ⟨body, -, h⟩
      · exact .inr ⟨d, List.mem_cons_self, h⟩
      · rcases bind_eq_error_iff.1 h with h | ⟨_, -, h⟩
        · rcases ih h with ⟨d', hd', hname, herr⟩ | ⟨d', hd', herr⟩
          · refine .inl ⟨d', List.mem_cons_of_mem _ hd', ?_, herr⟩
            rw [List.map_cons]
            rcases hname with hname | hname
            · rcases List.mem_cons.1 hname with hname | hname
              · right
                rw [← hname]
                exact .cons_mem (List.mem_map_of_mem hd')
              · exact .inl hname
            · exact .inr (.cons_duplicate hname)
          · exact .inr ⟨d', List.mem_cons_of_mem _ hd', herr⟩
        · cases h

/-! ### Files -/

/-- The names that files declare. -/
def declaredNames (parsed : List (Source × SchemaFile)) : List String :=
  parsed.flatMap fun x => x.2.definitions.map Definition.name

/-- **What files have to keep to before their imports are followed.** -/
structure DraftRules (parsed : List (Source × SchemaFile)) : Prop where
  /-- The local names of the imports of a file differ. -/
  imports : ∀ x ∈ parsed, (x.2.imports.map fun i => (draftLink i).name).Nodup
  /-- The names of the options of a file differ. -/
  options : ∀ x ∈ parsed, (x.2.options.map Setting.name).Nodup
  /-- The names of the definitions of all files differ. -/
  definitions : (declaredNames parsed).Nodup
  /-- The tags of the fields of messages fit. -/
  tags : ∀ x ∈ parsed, ∀ d ∈ x.2.definitions, d.body.TagsFit

/-- **What an error names that is found before imports are followed.** -/
inductive DraftFault (package : String) (parsed : List (Source × SchemaFile)) :
    CompileError → Prop where
  /-- Two imports of a file have this local name. -/
  | import {source : Source} {schema : SchemaFile} {name : String}
      (hfile : (source, schema) ∈ parsed)
      (hname : List.Duplicate name (schema.imports.map fun i => (draftLink i).name)) :
      DraftFault package parsed
        (.duplicateName ((Location.ofFile package source.name).member name) name)
  /-- Two options of a file have this name. -/
  | option {source : Source} {schema : SchemaFile} {name : String}
      (hfile : (source, schema) ∈ parsed)
      (hname : List.Duplicate name (schema.options.map Setting.name)) :
      DraftFault package parsed
        (.duplicateName ((Location.ofFile package source.name).member name) name)
  /-- A definition of the file has the name of another one of the package. -/
  | definition {source : Source} {schema : SchemaFile} {d : Definition}
      (hfile : (source, schema) ∈ parsed) (hd : d ∈ schema.definitions)
      (hname : List.Duplicate d.name (declaredNames parsed)) :
      DraftFault package parsed (.duplicateName (Location.ofFile package source.name) d.name)
  /-- The tag of a field does not fit. -/
  | tag {source : Source} {schema : SchemaFile} {d : Definition}
      {fields : List (Schema.Field TypeName Int64)} {f : Schema.Field TypeName Int64}
      (hfile : (source, schema) ∈ parsed) (hd : d ∈ schema.definitions)
      (hbody : d.body = .message fields) (hf : f ∈ fields)
      (htag : ¬ (1 ≤ f.tag.toInt ∧ f.tag.toInt ≤ 65535)) :
      DraftFault package parsed
        (.invalidTag (((Location.ofFile package source.name).definition d.name).member f.name)
          f.tag)

variable {package : String} {parsed : List (Source × SchemaFile)} {source : Source}
  {schema : SchemaFile}

theorem draftFile_eq_ok_iff {f : File Unit} :
    draftFile location source schema = .ok f ↔
      ((schema.imports.map fun i => (draftLink i).name).Nodup ∧
        (schema.options.map Setting.name).Nodup) ∧
      f = ⟨source.name, source.path, schema.imports.map draftLink, schema.options⟩ := by
  have hlinks : (schema.imports.map draftLink).map Link.name =
      schema.imports.map fun i => (draftLink i).name := List.map_map
  rw [← hlinks, ← requireDistinct_eq_ok_iff, ← requireDistinct_eq_ok_iff]
  unfold draftFile
  constructor
  · intro h
    obtain ⟨_, himports, h⟩ := bind_eq_ok_iff.1 h
    obtain ⟨_, hoptions, h⟩ := bind_eq_ok_iff.1 h
    cases h
    exact ⟨⟨himports, hoptions⟩, rfl⟩
  · rintro ⟨⟨himports, hoptions⟩, rfl⟩
    exact bind_eq_ok_iff.2 ⟨(), himports, bind_eq_ok_iff.2 ⟨(), hoptions, rfl⟩⟩

theorem draftFile_error (hfile : (source, schema) ∈ parsed)
    (h : draftFile (.ofFile package source.name) source schema = .error err) :
    DraftFault package parsed err := by
  have hlinks : (schema.imports.map draftLink).map Link.name =
      schema.imports.map fun i => (draftLink i).name := List.map_map
  rcases bind_eq_error_iff.1 h with h | ⟨_, -, h⟩
  · obtain ⟨name, hname, rfl⟩ := duplicate_of_requireDistinct h
    exact .import hfile (hlinks ▸ hname)
  · rcases bind_eq_error_iff.1 h with h | ⟨_, -, h⟩
    · obtain ⟨name, hname, rfl⟩ := duplicate_of_requireDistinct h
      exact .option hfile hname
    · cases h

/-- The definitions of files, each with the number of its file from number `file` on. -/
def numbered (file : Nat) (parsed : List (Source × SchemaFile)) : List (Nat × Definition) :=
  (parsed.zipIdx file).flatMap fun x => x.1.2.definitions.map fun d => (x.2, d)

theorem draftFiles_declared {file : Nat} {taken : List String} {files : List (File Unit)}
    {definitions : List (Declared TypeName)}
    (h : draftFiles package file taken parsed = .ok (files, definitions)) :
    List.Forall₂ DeclaredFrom (numbered file parsed) definitions := by
  induction parsed generalizing file taken files definitions with
  | nil =>
    cases h
    exact .nil
  | cons x parsed ih =>
    rw [draftFiles] at h
    obtain ⟨f, -, h⟩ := bind_eq_ok_iff.1 h
    obtain ⟨ds, hds, h⟩ := bind_eq_ok_iff.1 h
    obtain ⟨⟨fs, es⟩, hrest, h⟩ := bind_eq_ok_iff.1 h
    cases h
    rw [numbered, List.zipIdx_cons, List.flatMap_cons]
    exact List.rel_append (List.forall₂_map_left_iff.2 (draftDefinitions_ok hds)) (ih hrest)

theorem declaredNames_cons (x : Source × SchemaFile) :
    declaredNames (x :: parsed) = x.2.definitions.map Definition.name ++ declaredNames parsed :=
  List.flatMap_cons

/-- The rules for one file and for the files after it. -/
theorem draftRules_cons {x : Source × SchemaFile} :
    DraftRules (x :: parsed) ↔
      ((x.2.imports.map fun i => (draftLink i).name).Nodup ∧
        (x.2.options.map Setting.name).Nodup) ∧
      ((∀ d ∈ x.2.definitions, d.body.TagsFit) ∧ (x.2.definitions.map Definition.name).Nodup) ∧
      DraftRules parsed ∧
      (x.2.definitions.map Definition.name).Disjoint (declaredNames parsed) := by
  constructor
  · rintro ⟨himports, hoptions, hdefinitions, htags⟩
    rw [List.forall_mem_cons] at himports hoptions htags
    rw [declaredNames_cons, List.nodup_append'] at hdefinitions
    obtain ⟨hnodup, hnodup', hdisjoint⟩ := hdefinitions
    exact ⟨⟨himports.1, hoptions.1⟩, ⟨htags.1, hnodup⟩,
      ⟨himports.2, hoptions.2, hnodup', htags.2⟩, hdisjoint⟩
  · rintro ⟨⟨himports, hoptions⟩, ⟨htags, hnodup⟩, hrules, hdisjoint⟩
    refine ⟨?_, ?_, ?_, ?_⟩
    · exact List.forall_mem_cons.2 ⟨himports, hrules.imports⟩
    · exact List.forall_mem_cons.2 ⟨hoptions, hrules.options⟩
    · rw [declaredNames_cons, List.nodup_append']
      exact ⟨hnodup, hrules.definitions, hdisjoint⟩
    · exact List.forall_mem_cons.2 ⟨htags, hrules.tags⟩

/-- **Files are drafted if they keep to the rules** and declare no name that is taken. -/
theorem exists_draftFiles_iff (file : Nat) (taken : List String) :
    (∃ r, draftFiles package file taken parsed = .ok r) ↔
      DraftRules parsed ∧ ∀ name ∈ declaredNames parsed, name ∉ taken := by
  induction parsed generalizing file taken with
  | nil => exact ⟨fun _ => ⟨⟨nofun, nofun, List.nodup_nil, nofun⟩, nofun⟩, fun _ => ⟨_, rfl⟩⟩
  | cons x parsed ih =>
    obtain ⟨source, schema⟩ := x
    have htaken {ds : List (Declared TypeName)} {location : Location}
        (hds : draftDefinitions location file taken schema.definitions = .ok ds) :
        ds.map Declared.name = schema.definitions.map Definition.name :=
      map_eq_map_of_forall₂ ((draftDefinitions_ok hds).flip.imp fun _ _ h => h.1)
    rw [draftRules_cons, declaredNames_cons, List.forall_mem_append]
    constructor
    · rintro ⟨r, h⟩
      rw [draftFiles] at h
      obtain ⟨f, hf, h⟩ := bind_eq_ok_iff.1 h
      obtain ⟨ds, hds, h⟩ := bind_eq_ok_iff.1 h
      obtain ⟨r, hrest, -⟩ := bind_eq_ok_iff.1 h
      obtain ⟨hall, hnodup⟩ := (exists_draftDefinitions_iff ..).1 ⟨ds, hds⟩
      obtain ⟨hrules, hfresh⟩ := (ih ..).1 ⟨r, hrest⟩
      rw [htaken hds] at hfresh
      refine ⟨⟨(draftFile_eq_ok_iff.1 hf).1, ⟨fun d hd => (hall d hd).2, hnodup⟩, hrules, ?_⟩,
        ?_, ?_⟩
      · exact fun name hname hmem => hfresh name hmem (List.mem_append_left _ hname)
      · exact List.forall_mem_map.2 fun d hd => (hall d hd).1
      · exact fun name hname hmem => hfresh name hname (List.mem_append_right _ hmem)
    · rintro ⟨⟨hfile, ⟨htags, hnodup⟩, hrules, hdisjoint⟩, hfresh, hfresh'⟩
      obtain ⟨f, hf⟩ : ∃ f, draftFile (.ofFile package source.name) source schema = .ok f :=
        ⟨_, draftFile_eq_ok_iff.2 ⟨hfile, rfl⟩⟩
      rw [List.forall_mem_map] at hfresh
      obtain ⟨ds, hds⟩ := (exists_draftDefinitions_iff (.ofFile package source.name) file taken).2
        ⟨fun d hd => ⟨hfresh d hd, htags d hd⟩, hnodup⟩
      obtain ⟨r, hrest⟩ := (ih (file + 1) (ds.map Declared.name ++ taken)).2
        ⟨hrules, fun name hname hmem => by
          rcases List.mem_append.1 hmem with hmem | hmem
          · exact hdisjoint (htaken hds ▸ hmem) hname
          · exact hfresh' name hname hmem⟩
      rw [draftFiles]
      exact ⟨_, bind_eq_ok_iff.2 ⟨f, hf, bind_eq_ok_iff.2 ⟨ds, hds,
        bind_eq_ok_iff.2 ⟨r, hrest, rfl⟩⟩⟩⟩

/-- **An error names what is there**: a repeat, in one file or with one before it, or a tag. -/
theorem draftFiles_error {file : Nat} {taken : List String} (before : List (Source × SchemaFile))
    (h : draftFiles package file taken parsed = .error err)
    (htaken : ∀ name ∈ taken, name ∈ declaredNames before) :
    DraftFault package (before ++ parsed) err := by
  induction parsed generalizing file taken before with
  | nil => cases h
  | cons x parsed ih =>
    obtain ⟨source, schema⟩ := x
    have hfile : (source, schema) ∈ before ++ (source, schema) :: parsed :=
      List.mem_append_right _ List.mem_cons_self
    have hnames : declaredNames (before ++ (source, schema) :: parsed) =
        declaredNames before ++
          (schema.definitions.map Definition.name ++ declaredNames parsed) := by
      rw [declaredNames, List.flatMap_append, List.flatMap_cons]
      rfl
    rw [draftFiles] at h
    rcases bind_eq_error_iff.1 h with h | ⟨f, -, h⟩
    · exact draftFile_error hfile h
    rcases bind_eq_error_iff.1 h with h | ⟨ds, hds, h⟩
    · rcases draftDefinitions_error h with ⟨d, hd, hname, rfl⟩ | ⟨d, hd, hdraft⟩
      · refine .definition hfile hd ?_
        rw [hnames]
        rcases hname with hname | hname
        · exact duplicate_append (htaken _ hname)
            (List.mem_append_left _ (List.mem_map_of_mem hd))
        · exact (hname.mono_sublist (List.sublist_append_left _ _)).mono_sublist
            (List.sublist_append_right _ _)
      · obtain ⟨fields, hbody, f, hf, htag, rfl⟩ := draftBody_error hdraft
        exact .tag hfile hd hbody hf htag
    rcases bind_eq_error_iff.1 h with h | ⟨_, -, h⟩
    · have hrest := ih (before ++ [(source, schema)]) h fun name hname => by
        rw [declaredNames, List.flatMap_append, List.flatMap_singleton]
        rcases List.mem_append.1 hname with hname | hname
        · obtain ⟨d, hd, rfl⟩ := List.mem_map.1 hname
          obtain ⟨d', hd', hfrom⟩ := exists_of_forall₂ (draftDefinitions_ok hds) hd
          rw [hfrom.1]
          exact List.mem_append_right _ (List.mem_map_of_mem hd')
        · exact List.mem_append_left _ (htaken name hname)
      rwa [List.append_assoc] at hrest
    · cases h

end Backwire.Package
