import Backwire.Sample.Scene
import Backwire.Proofs.Package.Walks
import Backwire.Proofs.Wire.Struct
import Mathlib.Order.WellFoundedSet

/-!
# The codec of a declared struct

The code that is emitted for a struct calls, for each field, the code of its type: that of the
library for a builtin type, that of another struct otherwise. So what it does is settled by the
declaration alone, once every struct that it mentions is known. `s.Lays fields ty` follows the
declarations of a session down to the builtin types.

No declared struct holds itself, so this ends, and every struct of a session has a layout, exactly
one (`Session.Reachable.exists_layout`, `Session.Lays.unique`). What is written by a layout and read
by it again is then a matter of bytes alone (`Record.write_cases`).
-/

namespace Backwire.Package

open Schema
open Wire (RecordType Record Buffer maxSize)
open Sample (Pair Vec2)

variable {s : Session} {a : DefinitionId} {d : Declared TypeUse} {fields : List (Parameter TypeUse)}
  {ty ty' : RecordType}

/-! ### Layouts -/

/-- **The layout of the fields of a struct**: builtin types as they are, structs by the layout of
their own fields. -/
inductive Session.Lays (s : Session) : List (Parameter TypeUse) → RecordType → Prop where
  /-- No more fields. -/
  | nil : s.Lays [] .empty
  /-- A field of a builtin type. -/
  | builtin {name : String} {b : Wire.Builtin} {rest : List (Parameter TypeUse)}
      {later : RecordType} (h : s.Lays rest later) :
      s.Lays (⟨name, ⟨0, .builtin b⟩⟩ :: rest) (.datum b later)
  /-- A field that is a struct. -/
  | struct {name : String} {r : Reference} {a : DefinitionId} {link? : Option Nat}
      {d : Declared TypeUse} {fields rest : List (Parameter TypeUse)} {inner later : RecordType}
      (hd : s.definition? a = some d) (hbody : d.body = .struct fields)
      (hinner : s.Lays fields inner) (h : s.Lays rest later) :
      s.Lays (⟨name, ⟨0, .named r ⟨.struct, a, link?⟩⟩⟩ :: rest) (.record inner later)

/-- **Fields have one layout at most.** -/
theorem Session.Lays.unique (h : s.Lays fields ty) (h' : s.Lays fields ty') : ty = ty' := by
  induction h generalizing ty' with
  | nil =>
    cases h'
    rfl
  | builtin _ ih =>
    cases h' with
    | builtin h' => rw [ih h']
  | struct hd hbody _ _ ihInner ih =>
    cases h' with
    | struct hd' hbody' hinner' h' =>
      cases hd.symm.trans hd'
      cases hbody.symm.trans hbody'
      rw [ihInner hinner', ih h']

/-- Fields have a layout if each is of a builtin type or of a struct whose fields have one. -/
theorem Session.exists_layout_of_fixed (hfixed : ∀ f ∈ fields, Fixed f.type)
    (hstructs : ∀ f ∈ fields, ∀ b, structOf? f.type = some b → ∃ d inner ty,
      s.definition? b = some d ∧ d.body = .struct inner ∧ s.Lays inner ty) :
    ∃ ty, s.Lays fields ty := by
  induction fields with
  | nil => exact ⟨.empty, .nil⟩
  | cons f fields ih =>
    obtain ⟨hf, hfixed⟩ := List.forall_mem_cons.1 hfixed
    obtain ⟨hstruct, hstructs⟩ := List.forall_mem_cons.1 hstructs
    obtain ⟨later, hlater⟩ := ih hfixed hstructs
    obtain ⟨name, type⟩ := f
    cases hf with
    | builtin => exact ⟨_, .builtin hlater⟩
    | struct =>
      obtain ⟨d, inner, ty, hd, hbody, hinner⟩ := hstruct _ rfl
      exact ⟨_, .struct hd hbody hinner hlater⟩

/-! ### Structs of a session -/

/-- **Every struct of a session has a layout**: it has finitely many structs, and what a struct
holds comes before it. -/
theorem Session.Reachable.exists_layout (h : s.Reachable) (hd : s.definition? a = some d)
    (hbody : d.body = .struct fields) : ∃ ty, s.Lays fields ty := by
  let Within (b c : DefinitionId) : Prop := Relation.TransGen s.Holds c b
  have : IsStrictOrder DefinitionId Within :=
    { irrefl := h.not_holds_self
      trans := fun _ _ _ hab hbc => hbc.trans hab }
  have hwf : {b | b ∈ s.definitionIds}.WellFoundedOn Within :=
    (List.finite_toSet s.definitionIds).wellFoundedOn
  refine hwf.induction (P := fun a => ∀ d fields, s.definition? a = some d →
    d.body = .struct fields → ∃ ty, s.Lays fields ty) (Session.mem_definitionIds hd)
    (fun a _ ih d fields hd hbody => ?_) d fields hd hbody
  obtain ⟨c, hc, hindex⟩ := Option.bind_eq_some_iff.1 hd
  refine Session.exists_layout_of_fixed ((h.lawful _ c hc).2 _ d fields hindex hbody).1
    fun f hf b hb => ?_
  have hholds : s.Holds a b := ⟨d, fields, hd, hbody, f, hf, hb⟩
  obtain ⟨d', inner, hd', hbody'⟩ := hholds.struct h.resolved
  obtain ⟨ty, hty⟩ := ih b (Session.mem_definitionIds hd') (.single hholds) d' inner hd' hbody'
  exact ⟨d', inner, ty, hd', hbody', hty⟩

/-! ### The codec -/

/-- The fields of the struct `Pair` of the sample schema. -/
def pairFields : List (Parameter TypeUse) :=
  [⟨"key", ⟨0, .builtin .uint32⟩⟩, ⟨"value", ⟨0, .builtin .uint32⟩⟩]

/-- The fields of the struct `Vec2` of the sample schema. -/
def vec2Fields : List (Parameter TypeUse) :=
  [⟨"x", ⟨0, .builtin .float32⟩⟩, ⟨"y", ⟨0, .builtin .float32⟩⟩]

theorem lays_pair (s : Session) : s.Lays pairFields Pair.type := .builtin (.builtin .nil)

theorem lays_vec2 (s : Session) : s.Lays vec2Fields Vec2.type := .builtin (.builtin .nil)

/-- **The codec of every declared struct gives back what it was given.** In every session that can
be reached, the fields of a struct have exactly one layout, however deep structs are nested, and for
every value of the struct and whatever is in the buffer: if the value is not too large, writing it
adds as many bytes as it returns, and reading at the end of the buffer returns the value and this
number; else writing it fails and says so. The structs of the sample schema are instances, and they
are never too large. -/
theorem struct_codec_readBack (h : s.Reachable) :
    (∀ a d fields, s.definition? a = some d → d.body = .struct fields →
      ∃ ty, s.Lays fields ty ∧ (∀ ty', s.Lays fields ty' → ty' = ty) ∧
        ∀ r : Record, r.type = ty → ∀ buf : Buffer,
          (r.size ≤ maxSize ∧ ∃ e, e.length = r.size ∧ r.write buf = .ok r.size (buf.write e) ∧
            ty.read (buf.write e).tail = .ok (r, r.size)) ∨
          maxSize < r.size ∧ ∃ reported buf', r.write buf = .error (.sizeExceeded reported) buf') ∧
    (s.Lays pairFields Pair.type ∧ ∀ (p : Pair) (buf : Buffer), ∃ n e, e.length = n ∧
      p.toRecord.write buf = .ok n (buf.write e) ∧ Pair.read (buf.write e).tail = .ok (p, n)) ∧
    s.Lays vec2Fields Vec2.type ∧ ∀ (v : Vec2) (buf : Buffer), ∃ n e, e.length = n ∧
      v.toRecord.write buf = .ok n (buf.write e) ∧ Vec2.read (buf.write e).tail = .ok (v, n) := by
  refine ⟨fun a d fields hd hbody => ?_, ⟨lays_pair s, fun p buf => ?_⟩, lays_vec2 s,
    fun v buf => ?_⟩
  · obtain ⟨ty, hty⟩ := h.exists_layout hd hbody
    refine ⟨ty, hty, fun ty' hty' => hty'.unique hty, fun r hr buf => ?_⟩
    subst hr
    rcases r.write_cases buf with ⟨hle, e, -, hlen, hwrite, hread⟩ | hlarge
    · exact .inl ⟨hle, e, hlen, hwrite, hread⟩
    · exact .inr hlarge
  · rcases p.toRecord.write_cases buf with ⟨-, e, hform, hlen, hwrite, -⟩ | ⟨hlarge, -⟩
    · exact ⟨_, e, hlen, hwrite, hlen ▸ Pair.read_of_form hform buf.tail⟩
    · exact absurd p.size_le (Nat.not_le.2 hlarge)
  · rcases v.toRecord.write_cases buf with ⟨-, e, hform, hlen, hwrite, -⟩ | ⟨hlarge, -⟩
    · exact ⟨_, e, hlen, hwrite, hlen ▸ Vec2.read_of_form hform buf.tail⟩
    · exact absurd v.size_le (Nat.not_le.2 hlarge)

/-! ### A sample -/

/-- The struct `Out` with the fields 100, true and 7. -/
def outRecord : Record :=
  .record (.datum (.uint32 100) (.datum (.bool true) .empty)) (.datum (.byte 7) .empty)

theorem struct_codec_readBack_nested :
    Session.nested.Reachable ∧ ∃ d fields, Session.nested.definition? ⟨0, 1⟩ = some d ∧
      d.body = .struct fields ∧ Session.nested.Lays fields outRecord.type ∧
      ∃ e, e.length = 9 ∧ outRecord.write (.ofBytes [70]) = .ok 9 ((Buffer.ofBytes [70]).write e) ∧
        outRecord.type.read ((Buffer.ofBytes [70]).write e).tail = .ok (outRecord, 9) := by
  have hreach : Session.nested.Reachable := .of_attempt .empty attempt_nested
  obtain ⟨ty, hlays, hunique, hcodec⟩ := (struct_codec_readBack hreach).1 ⟨0, 1⟩ _ _ rfl rfl
  obtain rfl := hunique outRecord.type
    (.struct (a := ⟨0, 0⟩) rfl rfl (.builtin (.builtin .nil)) (.builtin .nil))
  refine ⟨hreach, _, _, rfl, rfl, hlays, ?_⟩
  have hsize : outRecord.size = 9 := by cbv
  rcases hcodec outRecord rfl (.ofBytes [70]) with ⟨-, hread⟩ | ⟨hlarge, -⟩
  · rwa [hsize] at hread
  · rw [hsize] at hlarge
    exact absurd hlarge (by decide)

end Backwire.Package
