import Backwire.Proofs.Wire.Grammar
import Backwire.Proofs.Wire.Writing

/-!
# How deep lists and messages may nest

A value is a tree: lists and messages hold values, or nothing at all, in their slots. The grammar of
`Encoding` is given here once more with the tree in place of the depth, so that it says nothing
about how deep a value may be (`encoding_iff_tree`).

Validation descends by one level for each slot, also where the slot is empty, and looks at the level
before it looks at the value. So of an encoding of a tree it either accepts all or reports that it
is too deep, and what is too deep is a slot (`ValueTree.Encoding.validateWithin_eq`). An empty list
has no slot: it may lie one level deeper than a list that holds something.
-/

namespace Backwire.Wire

open Tail

/-- **A tree of values.** -/
inductive ValueTree where
  /-- Nothing, in a slot that is empty. -/
  | absent
  | datum (d : Datum)
  | struct (body : List UInt8)
  | list (elements : List ValueTree)
  | message (fields : List (UInt16 × ValueTree))
  deriving Inhabited

namespace ValueTree

/-- What stands in the slots of a list or message. -/
def parts : ValueTree → List ValueTree
  | list elements => elements
  | message fields => fields.map Prod.snd
  | absent | datum _ | struct _ => []

/-- Lists and messages are containers, also where they hold nothing. -/
def IsContainer : ValueTree → Prop
  | list _ | message _ => True
  | absent | datum _ | struct _ => False

theorem parts_eq_nil {t : ValueTree} (h : ¬t.IsContainer) : t.parts = [] := by
  cases t with
  | absent | datum _ | struct _ => rfl
  | list _ | message _ => exact absurd trivial h

/-- What lies inside so many lists and messages. -/
def inside : Nat → ValueTree → List ValueTree
  | 0, t => [t]
  | n + 1, t => t.parts.flatMap (inside n)

/-- **Lists and messages nest more than `n` levels**: one lies inside `n` others. -/
def NestsDeeper (n : Nat) (t : ValueTree) : Prop := ∃ c ∈ t.inside n, c.IsContainer

/-! ### Trees and their encodings -/

mutual

/-- **The bytes write the tree**, in any of the ways that the format allows. -/
inductive Encoding : ValueTree → List UInt8 → Prop
  | datum {e : List UInt8} (d : Datum) (form : d.Form e) : Encoding (.datum d) e
  | struct {e : List UInt8} (body : List UInt8) (form : RegionForm .struct body e) :
      Encoding (.struct body) e
  | list {e : List UInt8} (elements : List ValueTree) (big : Bool) (stops : List Nat)
      (data : List UInt8) (fits : ListTable.Fits big stops)
      (form : Sealed (.ofList big) data (ListTable.encode big stops) e)
      (ascending : stops.Pairwise (· ≤ ·)) (bounded : ∀ s ∈ stops, s ≤ data.length)
      (count : elements.length = stops.length)
      (slots : ∀ x ∈ elements.zip (ListTable.extents 0 stops),
        Slot x.1 ((data.take x.2.2).drop x.2.1)) : Encoding (.list elements) e
  | message {e : List UInt8} (fields : List (UInt16 × ValueTree)) (big : Bool)
      (entries : List Entry) (data : List UInt8) (fits : MessageTable.Fits big entries)
      (form : Sealed (.ofMessage big) data (MessageTable.encode big entries) e)
      (ascending : (entries.map Entry.tag).Pairwise (· < ·))
      (bounded : ∀ f ∈ entries, f.stop ≤ data.length)
      (tags : fields.map Prod.fst = entries.map Entry.tag)
      (slots : ∀ x ∈ fields.zip entries, Field x.1.2 (data.take x.2.stop)) :
      Encoding (.message fields) e

/-- The bytes are the place of an element. -/
inductive Slot : ValueTree → List UInt8 → Prop
  | empty : Slot .absent []
  | whole {t : ValueTree} {s : List UInt8} (encoding : Encoding t s) : Slot t s

/-- The bytes end where a field ends. -/
inductive Field : ValueTree → List UInt8 → Prop
  | empty : Field .absent []
  | absent (front : List UInt8) : Field .absent (front ++ [0])
  | suffix {t : ValueTree} {e : List UInt8} (front : List UInt8) (encoding : Encoding t e) :
      Field t (front ++ e)

end

end ValueTree

/-! ### One level -/

section Checks

variable {check : Tail → Except WireError Nat} {err : WireError} {P : ValueTree → Prop}
  [DecidablePred P] {data : List UInt8}

/-- **The elements of a list are accepted if their trees are**; otherwise the error of the first one
that is refused is reported. -/
theorem checkElements_eq {elements : List ValueTree} {start : Nat} {stops : List Nat}
    (hasc : (start :: stops).Pairwise (· ≤ ·)) (hin : ∀ s ∈ stops, s ≤ data.length)
    (hcount : elements.length = stops.length)
    (h : ∀ x ∈ elements.zip (ListTable.extents start stops),
      check (ofBytes ((data.take x.2.2).drop x.2.1)) =
        if P x.1 then .ok ((data.take x.2.2).drop x.2.1).length else .error err) :
    checkElements check (ofBytes data) start stops =
      if ∀ t ∈ elements, P t then .ok () else .error err := by
  induction stops generalizing start elements with
  | nil =>
    obtain rfl := List.eq_nil_of_length_eq_zero hcount
    simp [checkElements]
  | cons stop stops ih =>
    cases elements with
    | nil => cases hcount
    | cons t elements =>
      rw [ListTable.extents_cons, List.zip_cons_cons] at h
      obtain ⟨hfirst, hrest⟩ := List.forall_mem_cons.1 h
      obtain ⟨hstop, hin⟩ := List.forall_mem_cons.1 hin
      have hstart : start ≤ stop := List.rel_of_pairwise_cons hasc List.mem_cons_self
      have hslot : (ofBytes data).slot start stop =
          some (ofBytes ((data.take stop).drop start)) := by
        rw [slot_eq_some_iff, toBytes_ofBytes, length_ofBytes]
        exact ⟨hstart, hstop, rfl⟩
      rw [checkElements, hslot]
      simp only [hfirst, List.forall_mem_cons]
      by_cases hP : P t
      · simp only [hP, length_ofBytes, if_true, true_and]
        exact ih hasc.of_cons hin (Nat.succ.inj hcount) hrest
      · simp only [hP, false_and, if_false]

/-- So are the fields of a message. -/
theorem checkFields_eq {fields : List (UInt16 × ValueTree)} {last : Option UInt16}
    {entries : List Entry} (hasc : (last.toList ++ entries.map Entry.tag).Pairwise (· < ·))
    (hin : ∀ f ∈ entries, f.stop ≤ data.length) (hcount : fields.length = entries.length)
    (h : ∀ x ∈ fields.zip entries, ∃ n, check (ofBytes (data.take x.2.stop)) =
      if P x.1.2 then .ok n else .error err) :
    checkFields check (ofBytes data) last entries =
      if ∀ t ∈ fields.map Prod.snd, P t then .ok () else .error err := by
  induction entries generalizing last fields with
  | nil =>
    obtain rfl := List.eq_nil_of_length_eq_zero hcount
    simp [checkFields]
  | cons f entries ih =>
    cases fields with
    | nil => cases hcount
    | cons field fields =>
      rw [List.zip_cons_cons] at h
      obtain ⟨⟨n, hfirst⟩, hrest⟩ := List.forall_mem_cons.1 h
      obtain ⟨hstop, hin⟩ := List.forall_mem_cons.1 hin
      have hpart : (ofBytes data).upTo f.stop = some (ofBytes (data.take f.stop)) := by
        rw [upTo_eq_some_iff, toBytes_ofBytes, length_ofBytes]
        exact ⟨hstop, rfl⟩
      have hlast : (last.any fun t => f.tag ≤ t) = false := by
        cases last with
        | none => rfl
        | some t => simpa [UInt16.not_le] using List.rel_of_pairwise_cons hasc List.mem_cons_self
      rw [checkFields, hlast, hpart]
      simp only [hfirst, List.map_cons, List.forall_mem_cons]
      by_cases hP : P field.2
      · simp only [hP, if_true, true_and]
        exact ih (List.pairwise_append.1 hasc).2.1 hin (Nat.succ.inj hcount) hrest
      · simp only [hP, false_and, if_false]
        rfl

end Checks

/-! ### All levels -/

namespace ValueTree

variable {t : ValueTree} {e s : List UInt8} {levels : Nat}

theorem inside_succ_eq_nil_iff {n : Nat} :
    t.inside (n + 1) = [] ↔ ∀ c ∈ t.parts, c.inside n = [] := List.flatMap_eq_nil_iff

/-- **What validation says of a tree** if it takes `n` bytes: all of it is accepted if nothing in it
is too deep. -/
def verdict (levels : Nat) (t : ValueTree) (n : Nat) : Except WireError Nat :=
  if t.inside levels = [] then .ok n else .error .depthExceeded

theorem verdict_succ (levels : Nat) (t : ValueTree) (n : Nat) : t.verdict (levels + 1) n =
    if ∀ c ∈ t.parts, c.inside levels = [] then .ok n else .error .depthExceeded :=
  if_congr inside_succ_eq_nil_iff rfl rfl

/-- Nothing in a blank string is too deep, if the string itself is not. -/
theorem validateWithin_of_blank {b : Tail} (h : b.Blank) (levels : Nat) :
    validateWithin levels b = absent.verdict levels 0 := by
  cases levels with
  | zero => rfl
  | succ levels =>
    have hread : Value.read b = .ok (.undefined, 0) := Value.read_eq_ok_iff.2 (.inl ⟨h, rfl, rfl⟩)
    exact validateWithin_succ_iff.2 ⟨_, hread, trivial⟩

/-- What is said of an encoding is said of a slot. -/
theorem Slot.validateWithin_eq
    (henc : ∀ {t e}, Encoding t e → ∀ front,
      validateWithin levels (ofBytes (front ++ e)) = t.verdict levels e.length)
    (h : Slot t s) : validateWithin levels (ofBytes s) = t.verdict levels s.length := by
  cases h with
  | empty => exact validateWithin_of_blank (.inl rfl) levels
  | whole encoding => exact henc encoding []

/-- What is said of an encoding is said of the string up to the end of a field. -/
theorem Field.validateWithin_eq
    (henc : ∀ {t e}, Encoding t e → ∀ front,
      validateWithin levels (ofBytes (front ++ e)) = t.verdict levels e.length)
    (h : Field t s) : ∃ n, validateWithin levels (ofBytes s) = t.verdict levels n := by
  cases h with
  | empty => exact ⟨0, validateWithin_of_blank (.inl rfl) levels⟩
  | absent front =>
    exact ⟨0, validateWithin_of_blank (blank_ofBytes_iff.2 (.inr ⟨front, rfl⟩)) levels⟩
  | suffix front encoding => exact ⟨_, henc encoding front⟩

/-- **Validation accepts a tree or finds it too deep.** -/
theorem Encoding.validateWithin_eq (h : Encoding t e) (front : List UInt8) :
    validateWithin levels (ofBytes (front ++ e)) = t.verdict levels e.length := by
  induction levels generalizing t e front with
  | zero => rfl
  | succ levels ih =>
    have hform {v : Value} (hv : v.Form e) :
        Value.read (ofBytes (front ++ e)) = .ok (v, e.length) := by
      rw [ofBytes_append]
      exact hv.read _
    rw [verdict_succ]
    cases h with
    | datum d form =>
      simp only [validateWithin, hform (v := .datum d) form]
      simp [parts]
    | struct body form =>
      have hbody : (Value.struct (ofBytes body)).Form e := by rwa [Value.Form, toBytes_ofBytes]
      simp only [validateWithin, hform hbody]
      simp [parts]
    | list elements big stops data fits form ascending bounded count slots =>
      have hcheck : checkElements (validateWithin levels) (ofBytes data) 0 stops =
          if ∀ c ∈ (ValueTree.list elements).parts, c.inside levels = [] then .ok ()
          else .error .depthExceeded :=
        checkElements_eq (List.pairwise_cons.2 ⟨fun _ _ => Nat.zero_le _, ascending⟩) bounded count
          fun x hx => (slots x hx).validateWithin_eq ih
      have hdata : (ListView.make big data stops).data = ofBytes data := rfl
      simp only [validateWithin, hform (v := .list _) (ListView.form_make form),
        ListView.stops_make fits data, hdata, hcheck]
      by_cases hparts : ∀ c ∈ (ValueTree.list elements).parts, c.inside levels = []
      · simp only [if_pos hparts]
      · simp only [if_neg hparts]
    | message fields big entries data fits form ascending bounded tags slots =>
      have hcount : fields.length = entries.length := by
        simpa using congrArg List.length tags
      have hcheck : checkFields (validateWithin levels) (ofBytes data) none entries =
          if ∀ c ∈ (ValueTree.message fields).parts, c.inside levels = [] then .ok ()
          else .error .depthExceeded :=
        checkFields_eq ascending bounded hcount fun x hx => (slots x hx).validateWithin_eq ih
      have hdata : (MessageView.make big data entries).data = ofBytes data := rfl
      simp only [validateWithin, hform (v := .message _) (MessageView.form_make form),
        MessageView.entries_make fits data, hdata, hcheck]
      by_cases hparts : ∀ c ∈ (ValueTree.message fields).parts, c.inside levels = []
      · simp only [if_pos hparts]
      · simp only [if_neg hparts]

/-- **What is too deep holds something**: nothing lies one level further inside if and only if what
lies so far inside is empty. -/
theorem inside_succ_eq_nil_iff_parts {n : Nat} :
    t.inside (n + 1) = [] ↔ ∀ c ∈ t.inside n, c.parts = [] := by
  induction n generalizing t with
  | zero =>
    have hself : t.inside 1 = t.parts := List.flatMap_singleton' t.parts
    rw [hself, inside, List.forall_mem_singleton]
  | succ n ih =>
    rw [inside_succ_eq_nil_iff, inside, List.forall_mem_flatMap]
    exact forall₂_congr fun c _ => ih

/-! ### The grammar with the depth -/

theorem Encoding.exists_form (h : Encoding t e) : ∃ v : Value, v.Form e := by
  cases h with
  | datum d form => exact ⟨.datum d, form⟩
  | struct body form => exact ⟨.struct (ofBytes body), by rwa [Value.Form, toBytes_ofBytes]⟩
  | list _ _ _ _ _ form => exact ⟨.list _, ListView.form_make form⟩
  | message _ _ _ _ _ form => exact ⟨.message _, MessageView.form_make form⟩

theorem Encoding.ne_nil (h : Encoding t e) : e ≠ [] := by
  obtain ⟨v, hv⟩ := h.exists_form
  obtain ⟨p, rfl⟩ := hv.last
  simp

/-- A slot of the grammar with the depth is the slot of a tree, if an encoding is one of a tree. -/
theorem exists_slot {depth : Nat} (hdepth : levels + depth = maxDepth)
    (henc : ∀ {l d e}, l + 1 = levels → l + d = maxDepth → Wire.Encoding d e →
      ∃ t : ValueTree, t.Encoding e ∧ t.inside (l + 1) = [])
    (h : Wire.Slot (depth + 1) s) : ∃ t : ValueTree, t.Slot s ∧ t.inside levels = [] := by
  obtain ⟨l, rfl⟩ : ∃ l, levels = l + 1 := by
    cases h <;> exact ⟨levels - 1, by omega⟩
  cases h with
  | empty => exact ⟨.absent, .empty, rfl⟩
  | whole _ encoding =>
    obtain ⟨t, ht, hinside⟩ := henc rfl (by omega) encoding
    exact ⟨t, .whole ht, hinside⟩

/-- So is a field. -/
theorem exists_field {depth : Nat} (hdepth : levels + depth = maxDepth)
    (henc : ∀ {l d e}, l + 1 = levels → l + d = maxDepth → Wire.Encoding d e →
      ∃ t : ValueTree, t.Encoding e ∧ t.inside (l + 1) = [])
    (h : Wire.Field (depth + 1) s) : ∃ t : ValueTree, t.Field s ∧ t.inside levels = [] := by
  obtain ⟨l, rfl⟩ : ∃ l, levels = l + 1 := by
    cases h <;> exact ⟨levels - 1, by omega⟩
  cases h with
  | empty => exact ⟨.absent, .empty, rfl⟩
  | absent _ front => exact ⟨.absent, .absent front, rfl⟩
  | suffix _ front encoding =>
    obtain ⟨t, ht, hinside⟩ := henc rfl (by omega) encoding
    exact ⟨t, .suffix front ht, hinside⟩

/-- **The two grammars agree**: what is an encoding at a depth is an encoding of a tree that is not
too deep there. -/
theorem encoding_iff_tree {depth : Nat} (hdepth : levels + depth = maxDepth) :
    Wire.Encoding depth e ↔ ∃ t : ValueTree, t.Encoding e ∧ t.inside (levels + 1) = [] := by
  constructor
  · intro h
    induction levels using Nat.strongRecOn generalizing depth e with
    | ind levels ih =>
      have henc {l d e} (hl : l + 1 = levels) (hd : l + d = maxDepth) (h : Wire.Encoding d e) :=
        ih l (by omega) hd h
      simp only [inside_succ_eq_nil_iff]
      cases h with
      | datum d form => exact ⟨.datum d, .datum d form, nofun⟩
      | struct body form => exact ⟨.struct body, .struct body form, nofun⟩
      | list big stops data fits form ascending bounded slots =>
        choose! tree htree using fun p hp => exists_slot hdepth henc (slots p hp)
        refine ⟨.list ((ListTable.extents 0 stops).map tree), ?_,
          List.forall_mem_map.2 fun p hp => (htree p hp).2⟩
        refine .list _ big stops data fits form ascending bounded ?_ ?_
        · rw [List.length_map, ListTable.length_extents]
        · rw [← List.map_prod_right_eq_zip, List.forall_mem_map]
          exact fun p hp => (htree p hp).1
      | message big entries data fits form ascending bounded fields =>
        choose! tree htree using fun f hf => exists_field hdepth henc (fields f hf)
        refine ⟨.message (entries.map fun f => (f.tag, tree f)), ?_, ?_⟩
        · refine .message _ big entries data fits form ascending bounded ?_ ?_
          · rw [List.map_map]
            rfl
          · rw [← List.map_prod_right_eq_zip, List.forall_mem_map]
            exact fun f hf => (htree f hf).1
        · rw [parts, List.map_map]
          exact List.forall_mem_map.2 fun f hf => (htree f hf).2
  · rintro ⟨t, h, hinside⟩
    have hok : validateWithin (levels + 1) (ofBytes e) = .ok e.length := by
      have hverdict : validateWithin (levels + 1) (ofBytes ([] ++ e)) = _ := h.validateWithin_eq []
      rwa [verdict, if_pos hinside] at hverdict
    have hsum : levels + 1 + depth = maxDepth + 1 := by omega
    cases accepted_length_iff.1 ((validateWithin_eq_ok_iff hsum).1 hok) with
    | empty => exact absurd rfl h.ne_nil
    | whole _ encoding => exact encoding

/-! ### A sample -/

/-- The tree inside so many lists that hold nothing else. -/
def listed (t : ValueTree) : Nat → ValueTree
  | 0 => t
  | n + 1 => .list [t.listed n]

/-- Inside as many of the lists lies what the others hold. -/
theorem inside_listed (t : ValueTree) (m n : Nat) : (t.listed (m + n)).inside n = [t.listed m] := by
  induction n with
  | zero => rfl
  | succ n ih =>
    have hparts : (t.listed (m + (n + 1))).parts = [t.listed (m + n)] := rfl
    rw [inside, hparts, List.flatMap_singleton, ih]

/-- The bytes inside so many lists that hold nothing else. -/
def listedBytes (e : List UInt8) : Nat → List UInt8
  | 0 => e
  | n + 1 =>
    let data := listedBytes e n
    let table := ListTable.encode false [data.length]
    data ++ table ++ toBytes (Varint.encode data.length) ++ toBytes (Varint.encode table.length)
      ++ [Tag.list.toByte]

/-- **A tree inside lists is written inside them**, if all of it is so small that the lists have
small tables. -/
theorem Encoding.listed (h : Encoding t e) {n : Nat} (hsize : e.length + 9 * n ≤ 65535) :
    (t.listed n).Encoding (listedBytes e n) ∧ (listedBytes e n).length ≤ e.length + 9 * n := by
  induction n with
  | zero => exact ⟨h, Nat.le_refl _⟩
  | succ n ih =>
    obtain ⟨hn, hlen⟩ := ih (by omega)
    have hwidth : Varint.width (listedBytes e n).length ≤ 5 := width_le (by omega) (by omega)
    have htable : (ListTable.encode false [(listedBytes e n).length]).length = 2 := by
      rw [ListTable.encode, List.flatMap_singleton, Word.length_toBytes]
      rfl
    have hall : (listedBytes e (n + 1)).length ≤ (listedBytes e n).length + 9 := by
      simp only [listedBytes, List.length_append, length_toBytes, Varint.length_encode, htable,
        List.length_singleton, Varint.width_of_lt (v := 2) (by omega)]
      omega
    refine ⟨.list [t.listed n] false [(listedBytes e n).length] (listedBytes e n) ?_ ?_
      (List.pairwise_singleton _ _) (by simp) rfl ?_, by omega⟩
    · exact List.forall_mem_singleton.2 (show _ < 65536 by omega)
    · refine ⟨_, _, rfl, sizeForm_encode ?_, sizeForm_encode ?_, ?_⟩ <;> unfold maxSize <;> omega
    · refine List.forall_mem_singleton.2 (.whole ?_)
      rwa [List.take_length, List.drop_zero]

end ValueTree

/-! ### What is too deep -/

/-- **When values nest too deep.** Take any bytes that write a tree of values, behind any others.

* Validation reports that they are too deep if and only if some list or message inside `maxDepth`
  others holds something; an element or field with no value counts.
* Otherwise it accepts them, with their size.
* So it accepts all trees in which lists and messages nest up to `maxDepth` levels, and refuses all
  in which they nest more than `maxDepth + 1` levels. -/
theorem validate_tree {t : ValueTree} {e : List UInt8} (h : t.Encoding e) (front : List UInt8) :
    (validate (ofBytes (front ++ e)) = .error .depthExceeded ↔
      ∃ c ∈ t.inside maxDepth, c.parts ≠ []) ∧
    ((∀ c ∈ t.inside maxDepth, c.parts = []) →
      validate (ofBytes (front ++ e)) = .ok e.length) ∧
    (¬t.NestsDeeper maxDepth → validate (ofBytes (front ++ e)) = .ok e.length) ∧
    (t.NestsDeeper (maxDepth + 1) →
      validate (ofBytes (front ++ e)) = .error .depthExceeded) := by
  have hvalidate : validate (ofBytes (front ++ e)) = t.verdict (maxDepth + 1) e.length :=
    h.validateWithin_eq front
  have hempty : t.inside (maxDepth + 1) = [] ↔ ∀ c ∈ t.inside maxDepth, c.parts = [] :=
    ValueTree.inside_succ_eq_nil_iff_parts
  rw [hvalidate]
  have haccepted (h : ∀ c ∈ t.inside maxDepth, c.parts = []) :
      t.verdict (maxDepth + 1) e.length = .ok e.length := if_pos (hempty.2 h)
  have hrefused (h : t.inside (maxDepth + 1) ≠ []) :
      t.verdict (maxDepth + 1) e.length = .error .depthExceeded := if_neg h
  refine ⟨⟨fun herror => ?_, fun ⟨c, hc, hparts⟩ => ?_⟩, haccepted, fun hlevels => ?_, ?_⟩
  · by_contra hnone
    rw [haccepted fun c hc => by_contra fun hparts => hnone ⟨c, hc, hparts⟩] at herror
    cases herror
  · exact hrefused fun hnil => hparts (hempty.1 hnil c hc)
  · exact haccepted fun c hc => ValueTree.parts_eq_nil fun hcontainer => hlevels ⟨c, hc, hcontainer⟩
  · rintro ⟨c, hc, -⟩
    exact hrefused (List.ne_nil_of_mem hc)

/-- A byte inside 129 lists is too deep. -/
theorem validate_tree_deep :
    (ValueTree.listed (.datum (.byte 7)) (1 + maxDepth)).Encoding
        (ValueTree.listedBytes [7, 3] (1 + maxDepth)) ∧
      validate (ofBytes (ValueTree.listedBytes [7, 3] (1 + maxDepth))) = .error .depthExceeded := by
  have hbyte : ValueTree.Encoding (.datum (.byte 7)) [7, 3] := .datum _ rfl
  have hlisted := (hbyte.listed (n := 1 + maxDepth) (by decide)).1
  have hinside := ValueTree.inside_listed (.datum (.byte 7)) 1 maxDepth
  have hdeep := (validate_tree hlisted []).1
  rw [List.nil_append, hinside] at hdeep
  exact ⟨hlisted, hdeep.2 ⟨.list [.datum (.byte 7)], List.mem_singleton_self _, nofun⟩⟩

/-- **129 lists in one another are accepted** if the innermost one is empty, although lists nest
more than `maxDepth` levels. -/
theorem validate_levels :
    (ValueTree.listed (.list []) maxDepth).Encoding (ValueTree.listedBytes [0, 0, 70] maxDepth) ∧
      (ValueTree.listed (.list []) maxDepth).NestsDeeper maxDepth ∧
      validate (ofBytes (ValueTree.listedBytes [0, 0, 70] maxDepth)) =
        .ok (ValueTree.listedBytes [0, 0, 70] maxDepth).length := by
  have hzero : SizeForm [0] 0 := ⟨.top (b := 0) (by decide), by decide⟩
  have hform : Sealed (.ofList false) [] (ListTable.encode false []) [0, 0, 70] :=
    ⟨[0], [0], rfl, hzero, hzero, by decide⟩
  have hempty : ValueTree.Encoding (.list []) [0, 0, 70] :=
    .list [] false [] [] nofun hform .nil nofun rfl nofun
  have hlisted := (hempty.listed (n := maxDepth) (by decide)).1
  have hinside : (ValueTree.listed (.list []) maxDepth).inside maxDepth = [.list []] := by
    have hall := ValueTree.inside_listed (.list []) 0 maxDepth
    rwa [Nat.zero_add] at hall
  have haccepted : (ValueTree.listed (.list []) maxDepth).inside (maxDepth + 1) = [] := by
    rw [ValueTree.inside_succ_eq_nil_iff_parts, hinside]
    exact List.forall_mem_singleton.2 rfl
  have hverdict : validate (ofBytes ([] ++ ValueTree.listedBytes [0, 0, 70] maxDepth)) = _ :=
    hlisted.validateWithin_eq []
  rw [List.nil_append, ValueTree.verdict, if_pos haccepted] at hverdict
  exact ⟨hlisted, ⟨.list [], hinside ▸ List.mem_singleton_self _, trivial⟩, hverdict⟩

end Backwire.Wire
