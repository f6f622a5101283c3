import Backwire.Proofs.Wire.Assembly
import Backwire.Proofs.Wire.Struct

/-!
# Scenes are read back

A scene is made by a run of setters, and so is each of its items. Whether they are given in this
order or that one, a run places one part for each setter (`Item.places`, `Scene.places`), and an
item in which a field is set twice places nothing in the list it was meant for: the list holds the
items that are kept. What is made of such parts, how large it is and how it is read and validated is
known of lists and messages in general (`Wire.Run.Places`, `Wire.Layout.MadeOf`), so all that
remains is to say it of the fields of the sample schema, one after another.

`Item.size` and `Scene.size` calculate the sizes from what the setters are given.
-/

namespace Backwire.Sample

open Backwire.Wire

/-! ### What setters write -/

namespace Cell

/-- How many bytes a value takes. -/
def size : Cell → Nat
  | datum d => d.size
  | record r => r.size

/-- The written forms of a value. -/
def Form : Cell → List UInt8 → Prop
  | datum d => d.Form
  | record r => r.Form

theorem weighs (c : Cell) : Weighs c.write c.size c.Form := by
  cases c with
  | datum d => exact d.weighs
  | record r => exact r.weighs

/-- **A value that is not too large** is written in the same bytes anywhere. -/
theorem exists_puts {c : Cell} (h : c.size ≤ maxSize) :
    ∃ e, c.Form e ∧ e.length = c.size ∧ Puts c.write e := by
  rcases c.weighs {} with ⟨-, e, hform, hlen, hwrite⟩ | ⟨hlarge, -⟩
  · exact ⟨e, hform, hlen, puts_of_empty (relocatable_cell c) (hlen ▸ hwrite)⟩
  · exact absurd h (Nat.not_le.2 hlarge)

theorem Form.accepted {c : Cell} {e : List UInt8} (h : c.Form e) (levels : Nat) :
    AcceptedWithin (levels + 1) e := by
  cases c with
  | datum d => exact Value.Form.accepted (v := .datum d) h (fun _ => trivial) levels
  | record r =>
    obtain ⟨body, -, hregion⟩ := h
    have hform : (Value.struct (Tail.ofBytes body)).Form e := by
      rwa [Value.Form, Tail.toBytes_ofBytes]
    exact hform.accepted (fun _ => trivial) levels

end Cell

/-- A form of a value of a builtin type is read by the reader of that type. -/
theorem read_of_form {α : Type} {read : Reader α} {make : α → Datum}
    (hmake : Function.Injective make) {v : α} {e : List UInt8} (h : (make v).Form e)
    (hread : ∀ t, (make v).builtin.read t = do let (w, n) ← read t; return (make w, n))
    (rest : Tail) : read (Tail.ofBytes e ++ rest) = .ok (v, e.length) := by
  have hdatum := h.read rest
  rw [hread] at hdatum
  obtain ⟨⟨w, n⟩, hw, hmade⟩ := bind_eq_ok_iff.1 hdatum
  obtain ⟨hwv, rfl⟩ := Prod.mk.inj (Except.ok.inj hmade)
  rw [hw, hmake hwv]

/-! ### Items -/

namespace ItemField

/-- The tag under which the setter writes. -/
def tag (f : ItemField) : UInt16 := f.cell.1

/-- How many bytes it writes. -/
def size (f : ItemField) : Nat := f.cell.2.size

/-- What it writes. -/
def Made (f : ItemField) (e : List UInt8) : Prop := f.cell.2.Form e ∧ e.length = f.size

end ItemField

namespace Item

variable {fields : List ItemField} {e : List UInt8}

/-- **The size of an item** with these fields. -/
def size (fields : List ItemField) : Nat :=
  Layout.size .message (fields.map ItemField.tag) (fields.map ItemField.size).sum

/-- What is made of an item with these fields. -/
def Made (fields : List ItemField) (e : List UInt8) : Prop :=
  Layout.MadeOf .message ItemField.tag ItemField.Made fields e ∧ e.length = size fields

/-- **The setters of an item place its fields.** -/
theorem places (h : ∀ f ∈ fields, f.size ≤ maxSize) :
    ∃ parts, Parts.Of ItemField.tag ItemField.Made fields parts ∧
      (build fields).Places Cell.write parts := by
  induction fields with
  | nil => exact ⟨[], .nil, .finish⟩
  | cons f fields ih =>
    obtain ⟨hf, hfields⟩ := List.forall_mem_cons.1 h
    obtain ⟨e, hform, hlen, hputs⟩ := Cell.exists_puts hf
    obtain ⟨parts, hof, hplaces⟩ := ih hfields
    exact ⟨(f.tag, e) :: parts, .cons ⟨rfl, hform, hlen⟩ hof, .write hputs hplaces⟩

/-- **An item is made if no field is set twice**, and otherwise it is refused for the smallest tag
that is repeated. -/
theorem made_or_refused (h : size fields ≤ maxSize) :
    ((fields.map ItemField.tag).Nodup ∧ ∃ e, Made fields e ∧ (build fields).Makes Cell.write e) ∨
    ¬(fields.map ItemField.tag).Nodup ∧ ∃ t, LeastRepeated t (fields.map ItemField.tag) ∧
      (build fields).Refused Cell.write (.duplicateTag t) := by
  obtain ⟨parts, hof, hplaces⟩ := places (Layout.le_of_size_le h)
  have hsize (f : ItemField) (e : List UInt8) (hf : f.Made e) : e.length = f.size := hf.2
  by_cases hnodup : (fields.map ItemField.tag).Nodup
  · obtain ⟨e, hmade, hlen, hmakes⟩ := hplaces.makes_of relocatable_cell hof hsize hnodup h
    exact .inl ⟨hnodup, e, ⟨hmade, hlen⟩, hmakes⟩
  · have hlt := Layout.lt_of_size_le h
    rw [← hof.length_joined hsize] at hlt
    rw [← hof.map_fst] at hnodup ⊢
    exact .inr ⟨hnodup, hplaces.repeated hnodup hlt⟩

theorem Made.accepted (h : Made fields e) (levels : Nat) : AcceptedWithin (levels + 2) e :=
  h.1.accepted fun _ _ _ hf => hf.1.accepted levels

/-- **The item shows its fields**: each that was set is there and is read as what was set, each
other one is read as its default. -/
structure Shows (i : Item) (fields : List ItemField) : Prop where
  shape : ReadsAs i.hasShape i.shape {} (· = ·) fun s => .shape s ∈ fields
  center : ReadsAs i.hasCenter i.center {} (· = ·) fun v => .center v ∈ fields
  label : ReadsAs i.hasLabel i.label "" (· = ·) fun s => .label s ∈ fields

theorem tag_eq_iff (f : ItemField) :
    (f.tag = 1 ↔ ∃ s, .shape s = f) ∧ (f.tag = 2 ↔ ∃ v, .center v = f) ∧
      (f.tag = 3 ↔ ∃ s, .label s = f) := by
  cases f <;> simp [ItemField.tag, ItemField.cell]

theorem Made.read (h : Made fields e) (rest : Tail) :
    ∃ i n, Item.read (Tail.ofBytes e ++ rest) = .ok (i, n) ∧ i.Shows fields := by
  obtain ⟨m, hform, hviews⟩ := h.1.views
  have hread : readMessage (Tail.ofBytes e ++ rest) = .ok (m, e.length) :=
    MessageView.Form.read hform rest
  refine ⟨⟨m⟩, e.length, ?_, ?_, ?_, ?_⟩
  · rw [Item.read, hread]
    rfl
  · refine hviews.field (fun f => (tag_eq_iff f).1) (fun s e rest hf => ?_) _
    have hnumber := read_of_form (fun _ _ h => Datum.int32.inj h) hf.1 (fun _ => rfl) rest
    refine ⟨s, e.length, ?_, rfl⟩
    rw [Shape.read, hnumber]
    rfl
  · refine hviews.field (fun f => (tag_eq_iff f).2.1) (fun v e rest hf => ?_) _
    exact ⟨v, e.length, Vec2.read_of_form hf.1 rest, rfl⟩
  · refine hviews.field (fun f => (tag_eq_iff f).2.2) (fun s e rest hf => ?_) _
    exact ⟨s, e.length, read_of_form (fun _ _ h => Datum.string.inj h) hf.1 (fun _ => rfl) rest,
      rfl⟩

end Item

/-! ### Scenes -/

namespace Scene

/-- The items of which no field is set twice. -/
def kept (items : List (List ItemField)) : List (List ItemField) :=
  items.filter fun item => decide (item.map ItemField.tag).Nodup

/-- The size of the list of the items that are kept. -/
def itemsSize (items : List (List ItemField)) : Nat :=
  Layout.size .list ((kept items).map fun _ => ()) ((kept items).map Item.size).sum

/-- The size of a list of weights. -/
def weightsSize (weights : List Int64) : Nat :=
  Layout.size .list (weights.map fun _ => ()) (weights.map fun w => (Datum.int64 w).size).sum

/-- What a weight is written as. -/
def WeightMade (w : Int64) (e : List UInt8) : Prop :=
  (Datum.int64 w).Form e ∧ e.length = (Datum.int64 w).size

end Scene

namespace SceneField

open Scene (kept itemsSize weightsSize WeightMade)

/-- The tag under which the setter writes. -/
def tag : SceneField → UInt16
  | name _ => 1
  | items _ => 2
  | weights _ => 3
  | pair _ => 4
  | blob _ => 5
  | id _ => 6

/-- How many bytes it writes. -/
def size : SceneField → Nat
  | name s => (Datum.string s).size
  | items given => itemsSize given
  | weights given => weightsSize given
  | pair p => p.toRecord.size
  | blob b => (Datum.bytes b).size
  | id v => (Datum.bin128 v).size

/-- The forms of what it writes. -/
def Form : SceneField → List UInt8 → Prop
  | name s => (Datum.string s).Form
  | items given => Layout.MadeOf .list (fun _ => ()) Item.Made (kept given)
  | weights given => Layout.MadeOf .list (fun _ => ()) WeightMade given
  | pair p => p.toRecord.Form
  | blob b => (Datum.bytes b).Form
  | id v => (Datum.bin128 v).Form

/-- What it writes. -/
def Made (f : SceneField) (e : List UInt8) : Prop := f.Form e ∧ e.length = f.size

theorem tag_eq_iff (f : SceneField) :
    (f.tag = 1 ↔ ∃ s, .name s = f) ∧ (f.tag = 2 ↔ ∃ items, .items items = f) ∧
      (f.tag = 3 ↔ ∃ weights, .weights weights = f) ∧ (f.tag = 4 ↔ ∃ p, .pair p = f) ∧
      (f.tag = 5 ↔ ∃ b, .blob b = f) ∧ (f.tag = 6 ↔ ∃ v, .id v = f) := by
  cases f <;> simp [tag]

/-- Items are the deepest that a scene holds. -/
theorem Made.accepted {f : SceneField} {e : List UInt8} (h : f.Made e) (levels : Nat) :
    AcceptedWithin (levels + 3) e := by
  have hdatum (d : Datum) (hd : d.Form e) : AcceptedWithin (levels + 3) e :=
    Cell.Form.accepted (c := .datum d) hd (levels + 2)
  cases f with
  | name s => exact hdatum (.string s) h.1
  | items items => exact h.1.accepted fun _ _ _ hitem => hitem.accepted levels
  | weights weights =>
    exact h.1.accepted fun w _ e hw => Cell.Form.accepted (c := .datum (.int64 w)) hw.1 (levels + 1)
  | pair p => exact Cell.Form.accepted (c := .record p.toRecord) h.1 (levels + 2)
  | blob b => exact hdatum (.bytes b) h.1
  | id v => exact hdatum (.bin128 v) h.1

end SceneField

namespace Scene

variable {fields : List SceneField} {items : List (List ItemField)} {e : List UInt8}

/-- **The list of items is made of those that are kept**: the others are refused and taken back. -/
theorem buildItems_makes (h : ∀ item ∈ items, Item.size item ≤ maxSize)
    (hsize : itemsSize items ≤ maxSize) :
    ∃ e, (SceneField.items items).Made e ∧ (buildItems items).Makes Cell.write e := by
  have hplaces : ∃ parts, Parts.Of (fun _ => ()) Item.Made (kept items) parts ∧
      (buildItems items).Places Cell.write parts := by
    clear hsize
    induction items with
    | nil => exact ⟨[], .nil, .finish⟩
    | cons item items ih =>
      obtain ⟨hitem, hitems⟩ := List.forall_mem_cons.1 h
      obtain ⟨parts, hof, hplaces⟩ := ih hitems
      rcases Item.made_or_refused hitem with ⟨hnodup, e, hmade, hmakes⟩ | ⟨hnodup, t, -, hrefused⟩
      · refine ⟨((), e) :: parts, ?_, .nest hmakes hplaces⟩
        rw [kept, List.filter_cons, if_pos (decide_eq_true hnodup)]
        exact .cons ⟨rfl, hmade⟩ hof
      · refine ⟨parts, ?_, .refused hrefused hplaces⟩
        rwa [kept, List.filter_cons, if_neg (by simpa using hnodup)]
  obtain ⟨parts, hof, hplaces⟩ := hplaces
  obtain ⟨e, hmade, hlen, hmakes⟩ :=
    hplaces.makes_of relocatable_cell hof (fun _ _ hitem => hitem.2) trivial hsize
  exact ⟨e, ⟨hmade, hlen⟩, hmakes⟩

/-- **The list of weights is made of all of them.** -/
theorem buildWeights_makes {weights : List Int64} (hsize : weightsSize weights ≤ maxSize) :
    ∃ e, (SceneField.weights weights).Made e ∧ (buildWeights weights).Makes Cell.write e := by
  have hweights := Layout.le_of_size_le hsize
  have hplaces : ∃ parts, Parts.Of (fun _ => ()) WeightMade weights parts ∧
      (buildWeights weights).Places Cell.write parts := by
    clear hsize
    induction weights with
    | nil => exact ⟨[], .nil, .finish⟩
    | cons w weights ih =>
      obtain ⟨hw, hrest⟩ := List.forall_mem_cons.1 hweights
      obtain ⟨e, hform, hlen, hputs⟩ := Cell.exists_puts (c := .datum (.int64 w)) hw
      obtain ⟨parts, hof, hplaces⟩ := ih hrest
      exact ⟨((), e) :: parts, .cons ⟨rfl, hform, hlen⟩ hof, .write hputs hplaces⟩
  obtain ⟨parts, hof, hplaces⟩ := hplaces
  obtain ⟨e, hmade, hlen, hmakes⟩ :=
    hplaces.makes_of relocatable_cell hof (fun _ _ hw => hw.2) trivial hsize
  exact ⟨e, ⟨hmade, hlen⟩, hmakes⟩

/-- **The size of a scene** with these fields. -/
def size (fields : List SceneField) : Nat :=
  Layout.size .message (fields.map SceneField.tag) (fields.map SceneField.size).sum

/-- **The setters of a scene place its fields.** -/
theorem places (h : ∀ f ∈ fields, f.size ≤ maxSize)
    (hitems : ∀ items, .items items ∈ fields → ∀ item ∈ items, Item.size item ≤ maxSize) :
    ∃ parts, Parts.Of SceneField.tag SceneField.Made fields parts ∧
      (build fields).Places Cell.write parts := by
  induction fields with
  | nil => exact ⟨[], .nil, .finish⟩
  | cons f fields ih =>
    obtain ⟨hf, hfields⟩ := List.forall_mem_cons.1 h
    obtain ⟨parts, hof, hplaces⟩ :=
      ih hfields fun items hmem => hitems items (List.mem_cons_of_mem f hmem)
    have hdatum (d : Datum) (hd : d.size ≤ maxSize) := Cell.exists_puts (c := .datum d) hd
    cases f with
    | name s =>
      obtain ⟨e, hform, hlen, hputs⟩ := hdatum (.string s) hf
      exact ⟨(1, e) :: parts, .cons ⟨rfl, hform, hlen⟩ hof, .write hputs hplaces⟩
    | items items =>
      obtain ⟨e, hmade, hmakes⟩ := buildItems_makes (hitems items List.mem_cons_self) hf
      exact ⟨(2, e) :: parts, .cons ⟨rfl, hmade⟩ hof, .nest hmakes hplaces⟩
    | weights weights =>
      obtain ⟨e, hmade, hmakes⟩ := buildWeights_makes hf
      exact ⟨(3, e) :: parts, .cons ⟨rfl, hmade⟩ hof, .nest hmakes hplaces⟩
    | pair p =>
      obtain ⟨e, hform, hlen, hputs⟩ := Cell.exists_puts (c := .record p.toRecord) hf
      exact ⟨(4, e) :: parts, .cons ⟨rfl, hform, hlen⟩ hof, .write hputs hplaces⟩
    | blob b =>
      obtain ⟨e, hform, hlen, hputs⟩ := hdatum (.bytes b) hf
      exact ⟨(5, e) :: parts, .cons ⟨rfl, hform, hlen⟩ hof, .write hputs hplaces⟩
    | id v =>
      obtain ⟨e, hform, hlen, hputs⟩ := hdatum (.bin128 v) hf
      exact ⟨(6, e) :: parts, .cons ⟨rfl, hform, hlen⟩ hof, .write hputs hplaces⟩

/-- **The scene shows its fields**: each that was set is there and is read as what was set, each
other one is read as its default. Of the items those are read that are kept, and each of them shows
its own fields. -/
structure Shows (s : Scene) (fields : List SceneField) : Prop where
  name : ReadsAs s.hasName s.name "" (· = ·) fun n => .name n ∈ fields
  items : ReadsAs s.hasItems s.items {}
    (fun l items => l.ReadsAs Item.read Item.Shows (kept items)) fun items => .items items ∈ fields
  weights : ReadsAs s.hasWeights s.weights {} (fun l weights => l.ReadsAs readInt64 (· = ·) weights)
    fun weights => .weights weights ∈ fields
  pair : ReadsAs s.hasPair s.pair {} (· = ·) fun p => .pair p ∈ fields
  blob : ReadsAs s.hasBlob s.blob [] (· = ·) fun b => .blob b ∈ fields
  id : ReadsAs s.hasId s.id (Bin.zero 16) (· = ·) fun v => .id v ∈ fields

/-- What is made of a scene is read as a scene that shows its fields. -/
theorem read_of_made (h : Layout.MadeOf .message SceneField.tag SceneField.Made fields e)
    (rest : Tail) :
    ∃ s, Scene.read (Tail.ofBytes e ++ rest) = .ok (s, e.length) ∧ s.Shows fields := by
  obtain ⟨m, hform, hviews⟩ := h.views
  have hread : readMessage (Tail.ofBytes e ++ rest) = .ok (m, e.length) :=
    MessageView.Form.read hform rest
  have htag := SceneField.tag_eq_iff
  refine ⟨⟨m⟩, by rw [Scene.read, hread]; rfl, ?_, ?_, ?_, ?_, ?_, ?_⟩
  · refine hviews.field (fun f => (htag f).1) (fun s e rest hf => ?_) _
    exact ⟨s, e.length, read_of_form (fun _ _ h => Datum.string.inj h) hf.1 (fun _ => rfl) rest,
      rfl⟩
  · refine hviews.field (fun f => (htag f).2.1) (fun items e rest hf => ?_) _
    obtain ⟨l, hform, hviews⟩ := hf.1.views
    refine ⟨l, e.length, ListView.Form.read hform rest, hviews.readsAs fun item e rest hitem => ?_⟩
    exact hitem.read rest
  · refine hviews.field (fun f => (htag f).2.2.1) (fun weights e rest hf => ?_) _
    obtain ⟨l, hform, hviews⟩ := hf.1.views
    refine ⟨l, e.length, ListView.Form.read hform rest, hviews.readsAs fun w e rest hw => ?_⟩
    exact ⟨w, e.length, read_of_form (fun _ _ h => Datum.int64.inj h) hw.1 (fun _ => rfl) rest,
      rfl⟩
  · refine hviews.field (fun f => (htag f).2.2.2.1) (fun p e rest hf => ?_) _
    exact ⟨p, e.length, Pair.read_of_form hf.1 rest, rfl⟩
  · refine hviews.field (fun f => (htag f).2.2.2.2.1) (fun b e rest hf => ?_) _
    exact ⟨b, e.length, read_of_form (fun _ _ h => Datum.bytes.inj h) hf.1 (fun _ => rfl) rest,
      rfl⟩
  · refine hviews.field (fun f => (htag f).2.2.2.2.2) (fun v e rest hf => ?_) _
    exact ⟨v, e.length, read_of_form (fun _ _ h => Datum.bin128.inj h) hf.1 (fun _ => rfl) rest,
      rfl⟩

/-- **A scene is read back.** Take setters in any order, the weights given together or one by one,
and each item by setters of its own, such that the scene is not too large and no item is. Whatever
is in the buffer before,

* if no field is set twice, the scene is finished in its size, it is valid, and at the end of the
  buffer a scene of that size is read which shows the fields that were set;
* if a field is set twice, the scene is refused for the smallest tag of such a field, and the
  buffer is as before;
* the items that the scene shows are those that are finished themselves, and the others are refused
  for the smallest tag under which they set a field twice. -/
theorem reads_back (buf : Buffer)
    (hitems : ∀ items, .items items ∈ fields → ∀ item ∈ items, Item.size item ≤ maxSize)
    (hsize : size fields ≤ maxSize) :
    ((fields.map SceneField.tag).Nodup → ∃ e events s,
      e.length = size fields ∧
      (build fields).build Cell.write buf = (.finished (.ok (size fields)), buf.write e, events) ∧
      validate (buf.write e).tail = .ok (size fields) ∧
      Scene.read (buf.write e).tail = .ok (s, size fields) ∧ s.Shows fields) ∧
    (¬(fields.map SceneField.tag).Nodup → ∃ t events,
      LeastRepeated t (fields.map SceneField.tag) ∧
      (build fields).build Cell.write buf = (.finished (.error (.duplicateTag t)), buf, events)) ∧
    ∀ items, .items items ∈ fields → ∀ item ∈ items,
      (item ∈ kept items ∧ ∃ e, (Item.build item).Makes Cell.write e) ∨
      item ∉ kept items ∧ ∃ t, LeastRepeated t (item.map ItemField.tag) ∧
        (Item.build item).Refused Cell.write (.duplicateTag t) := by
  have hlen (f : SceneField) (e : List UInt8) (hf : f.Made e) : e.length = f.size := hf.2
  obtain ⟨parts, hof, hplaces⟩ := places (Layout.le_of_size_le hsize) hitems
  refine ⟨fun hnodup => ?_, fun hrepeated => ?_, fun items hmem item hitem => ?_⟩
  · obtain ⟨e, hmade, hlength, hmakes⟩ := hplaces.makes_of relocatable_cell hof hlen hnodup hsize
    change e.length = size fields at hlength
    obtain ⟨events, hbuild⟩ := hmakes buf
    obtain ⟨s, hread, hshows⟩ := read_of_made hmade buf.tail
    have haccepted : AcceptedWithin (maxDepth + 1) e :=
      hmade.accepted fun _ _ _ hf => hf.accepted (maxDepth - 3)
    refine ⟨e, events, s, hlength, hlength ▸ hbuild, ?_, hlength ▸ hread, hshows⟩
    exact hlength ▸ haccepted buf.tail
  · have hlt := Layout.lt_of_size_le hsize
    rw [← hof.length_joined hlen] at hlt
    rw [← hof.map_fst] at hrepeated ⊢
    obtain ⟨t, hleast, hrefused⟩ := hplaces.repeated hrepeated hlt
    obtain ⟨events, hbuild⟩ := hrefused buf
    exact ⟨t, events, hleast, hbuild⟩
  · have hkept : item ∈ kept items ↔ (item.map ItemField.tag).Nodup := by
      rw [kept, List.mem_filter, decide_eq_true_eq, and_iff_right hitem]
    rw [hkept]
    rcases Item.made_or_refused (hitems items hmem item hitem) with
      ⟨hnodup, e, -, hmakes⟩ | ⟨hrepeated, hrefused⟩
    · exact .inl ⟨hnodup, e, hmakes⟩
    · exact .inr ⟨hrepeated, hrefused⟩

/-- The items of a sketch. The second one is given two labels. -/
def sketchItems : List (List ItemField) :=
  [[.label "a", .center {}, .shape ⟨1⟩], [.label "b", .label "c"], []]

/-- The fields of a scene, the last one first. -/
def sketch : List SceneField :=
  [.id (Bin.zero 16), .pair ⟨7, 100⟩, .weights [3, -3], .items sketchItems, .name "sketch"]
/-- A scene is read back without the item that is refused. -/
theorem reads_back_sketch : ∃ e events s,
    (build sketch).build Cell.write {} = (.finished (.ok 101), Buffer.write {} e, events) ∧
    validate (Buffer.write {} e).tail = .ok 101 ∧
    Scene.read (Buffer.write {} e).tail = .ok (s, 101) ∧
    s.name = .ok "sketch" ∧ s.pair = .ok ⟨7, 100⟩ ∧ s.hasBlob = false ∧ s.blob = .ok [] ∧
    ∃ l, s.items = .ok l ∧ l.ReadsAs Item.read Item.Shows
      [[.label "a", .center {}, .shape ⟨1⟩], []] := by
  have hsizes : ∀ item ∈ sketchItems, Item.size item ≤ 30 := by
    rw [sketchItems, List.forall_mem_cons, List.forall_mem_cons]
    exact ⟨by cbv, by cbv, List.forall_mem_singleton.2 (by cbv)⟩
  have hitems (items : List (List ItemField)) (hmem : .items items ∈ sketch) (item : List ItemField)
      (hitem : item ∈ items) : Item.size item ≤ maxSize := by
    obtain rfl : items = sketchItems := by simpa [sketch] using hmem
    exact (hsizes item hitem).trans (by simp [maxSize])
  have hsize : size sketch = 101 := by cbv
  obtain ⟨e, events, s, -, hbuild, hvalid, hread, hshows⟩ :=
    (reads_back {} hitems (by simp [hsize, maxSize])).1 (by decide)
  rw [hsize] at hbuild hvalid hread
  have hblob : ∀ b, .blob b ∉ sketch := by simp [sketch]
  obtain ⟨_, hname, rfl⟩ := hshows.name.value "sketch" (by simp [sketch])
  obtain ⟨_, hpair, rfl⟩ := hshows.pair.value ⟨7, 100⟩ (by simp [sketch])
  obtain ⟨l, hl, hkept⟩ := hshows.items.value sketchItems (by simp [sketch])
  refine ⟨e, events, s, hbuild, hvalid, hread, hname, hpair, ?_, hshows.blob.unset hblob, l, hl,
    hkept⟩
  rw [Bool.eq_false_iff, Ne, hshows.blob.has_iff]
  rintro ⟨b, hb⟩
  exact hblob b hb

end Scene

end Backwire.Sample
