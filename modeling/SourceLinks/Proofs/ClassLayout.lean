import Mathlib.Algebra.Ring.Nat
import Mathlib.Data.List.Forall2
import SourceLinks.ClassFile.Reader
import SourceLinks.Proofs.Utf8

namespace SourceLinks.ClassFile

/-- The octets of a number, the highest first. -/
def octets : (width n : Nat) → List UInt8
  | 0, _ => []
  | width + 1, n => octets width (n / 256) ++ [UInt8.ofNat n]

@[simp] theorem length_octets (width n : Nat) : (octets width n).length = width := by
  induction width generalizing n with
  | zero => rfl
  | succ width ih => rw [octets, List.length_append, ih, List.length_singleton]

theorem bigEndian_octets {width n : Nat} (h : n < 256 ^ width) : bigEndian (octets width n) = n := by
  induction width generalizing n with
  | zero =>
    have hzero : n = 0 := by simpa using h
    rw [hzero]
    rfl
  | succ width ih =>
    have hhigh : n / 256 < 256 ^ width := by
      rw [Nat.div_lt_iff_lt_mul (by decide)]
      simpa [Nat.pow_succ] using h
    have hlast : ∀ bytes b, bigEndian (bytes ++ [b]) = bigEndian bytes * 256 + b.toNat := by
      intro bytes b
      simp [bigEndian]
    rw [octets, hlast, ih hhigh, UInt8.toNat_ofNat']
    omega

/-- A constant as a class file holds it. -/
inductive Entry where
  | text (value : String) (fits : (Utf8.encode value.toList).length < 2 ^ 16)
  | integer (bits : UInt32)
  | float (bits : UInt32)
  | long (bits : UInt64)
  | double (bits : UInt64)
  | classRef (name : UInt16)
  | stringRef (value : UInt16)
  | fieldRef (owner member : UInt16)
  | methodRef (owner member : UInt16)
  | interfaceMethodRef (owner member : UInt16)
  | nameAndType (name type : UInt16)
  | methodHandle (kind : UInt8) (reference : UInt16)
  | methodType (descriptor : UInt16)
  | dynamic (bootstrap member : UInt16)
  | invokeDynamic (bootstrap member : UInt16)
  | moduleRef (name : UInt16)
  | packageRef (name : UInt16)

namespace Entry

def tag : Entry → Nat
  | .text .. => 1
  | .integer _ => 3
  | .float _ => 4
  | .long _ => 5
  | .double _ => 6
  | .classRef _ => 7
  | .stringRef _ => 8
  | .fieldRef .. => 9
  | .methodRef .. => 10
  | .interfaceMethodRef .. => 11
  | .nameAndType .. => 12
  | .methodHandle .. => 15
  | .methodType _ => 16
  | .dynamic .. => 17
  | .invokeDynamic .. => 18
  | .moduleRef _ => 19
  | .packageRef _ => 20

/-- What follows the tag. -/
def payload : Entry → List UInt8
  | .text value _ =>
    octets 2 (Utf8.encode value.toList).length ++ Utf8.encode value.toList
  | .integer bits | .float bits => octets 4 bits.toNat
  | .long bits | .double bits => octets 8 bits.toNat
  | .classRef i | .stringRef i | .methodType i | .moduleRef i | .packageRef i => octets 2 i.toNat
  | .fieldRef i j | .methodRef i j | .interfaceMethodRef i j | .nameAndType i j | .dynamic i j
  | .invokeDynamic i j => octets 2 i.toNat ++ octets 2 j.toNat
  | .methodHandle kind i => octets 1 kind.toNat ++ octets 2 i.toNat

def bytes (e : Entry) : List UInt8 :=
  octets 1 e.tag ++ e.payload

/-- The numbers that an entry uses up. -/
def size : Entry → Nat
  | .long _ | .double _ => 2
  | _ => 1

/-- What names need to know of an entry. -/
def constant : Entry → Constant
  | .text value _ => .text value
  | .classRef name => .classRef name.toNat
  | _ => .other

end Entry

/-- The entry that has this index: entries are counted from one, and a wide one counts twice. -/
def EntryAt (entries : List Entry) (index : Nat) (e : Entry) : Prop :=
  ∃ before after, entries = before ++ e :: after ∧ index = 1 + (before.map Entry.size).sum

structure Attribute where
  name : UInt16
  info : List UInt8
  fits : info.length < 2 ^ 32

def Attribute.bytes (a : Attribute) : List UInt8 :=
  octets 2 a.name.toNat ++ (octets 4 a.info.length ++ a.info)

/-- The number of items and the items one after another. -/
def counted {α : Type} (bytes : α → List UInt8) (items : List α) : List UInt8 :=
  octets 2 items.length ++ items.flatMap bytes

/-- A field or a method. -/
structure Member where
  access : UInt16
  name : UInt16
  descriptor : UInt16
  attributes : List Attribute
  fits : attributes.length < 2 ^ 16

def Member.header (m : Member) : List UInt8 :=
  octets 2 m.access.toNat ++ octets 2 m.name.toNat ++ octets 2 m.descriptor.toNat

def Member.bytes (m : Member) : List UInt8 :=
  m.header ++ counted Attribute.bytes m.attributes

/-- All that a class file holds, with whatever follows the class in it. -/
structure Layout where
  minor : UInt16
  major : UInt16
  entries : List Entry
  access : UInt16
  thisClass : UInt16
  superClass : UInt16
  interfaces : List UInt16
  fields : List Member
  methods : List Member
  attributes : List Attribute
  trailing : List UInt8
  entries_fit : 1 + (entries.map Entry.size).sum < 2 ^ 16
  interfaces_fit : interfaces.length < 2 ^ 16
  fields_fit : fields.length < 2 ^ 16
  methods_fit : methods.length < 2 ^ 16
  attributes_fit : attributes.length < 2 ^ 16

namespace Layout

/-- The octets up to the attributes of the class. -/
def head (l : Layout) : List UInt8 :=
  List.flatten [
    [0xCA, 0xFE, 0xBA, 0xBE],
    octets 2 l.minor.toNat ++ octets 2 l.major.toNat,
    octets 2 (1 + (l.entries.map Entry.size).sum) ++ l.entries.flatMap Entry.bytes,
    octets 2 l.access.toNat,
    octets 2 l.thisClass.toNat,
    octets 2 l.superClass.toNat,
    counted (fun i => octets 2 i.toNat) l.interfaces,
    counted Member.bytes l.fields,
    counted Member.bytes l.methods]

def bytes (l : Layout) : List UInt8 :=
  l.head ++ (counted Attribute.bytes l.attributes ++ l.trailing)

/-- The text at an index. -/
def TextAt (l : Layout) (index : UInt16) (value : String) : Prop :=
  ∃ fits, EntryAt l.entries index.toNat (.text value fits)

/-- The class at an index, which may stand before or after its name. -/
def ClassAt (l : Layout) (index : UInt16) (name : String) : Prop :=
  ∃ i, EntryAt l.entries index.toNat (.classRef i) ∧ l.TextAt i name

/-- The layout is that of a class of this structure: all its references lead where they should. -/
structure Describes (l : Layout) (s : ClassStructure) : Prop where
  named : s.name ≠ ""
  name : l.ClassAt l.thisClass s.name
  super : (l.superClass = 0 ∧ s.super = none) ∨
    ∃ above, l.ClassAt l.superClass above ∧ s.super = some above
  methods : List.Forall₂ (fun m method =>
    l.TextAt m.name method.name ∧ l.TextAt m.descriptor method.descriptor) l.methods s.methods

end Layout

/-- The reader takes exactly these octets, whatever follows them. -/
def Reads {α : Type} (r : Reader α) (bytes : List UInt8) (a : α) : Prop :=
  ∀ position rest, r.run ⟨position, bytes ++ rest⟩ = .ok (a, ⟨position + bytes.length, rest⟩)

namespace Reads
variable {α β : Type} {r : Reader α} {f : α → Reader β} {a : α} {b : β} {bytes more : List UInt8}

theorem pure (a : α) : Reads (Pure.pure a) [] a := by
  intro position rest
  rfl

theorem bind (h : Reads r bytes a) (hf : Reads (f a) more b) : Reads (r >>= f) (bytes ++ more) b := by
  intro position rest
  have hfirst := h position (more ++ rest)
  have hsecond := hf (position + bytes.length) rest
  rw [List.append_assoc, StateT.run_bind, hfirst]
  rw [List.length_append, ← Nat.add_assoc]
  exact hsecond

theorem bind_nil (h : Reads r [] a) (hf : Reads (f a) more b) : Reads (r >>= f) more b :=
  h.bind hf

theorem take {n : Nat} (h : bytes.length = n) : Reads (ClassFile.take n) bytes bytes := by
  subst h
  intro position rest
  have hlen : ¬ ((bytes ++ rest).take bytes.length).length < bytes.length := by simp
  simp only [ClassFile.take, StateT.run, hlen, ↓reduceIte]
  rw [List.take_left, List.drop_left]

theorem map {g : α → β} (h : Reads r bytes a) (hg : g a = b) :
    Reads (r >>= fun a => Pure.pure (g a)) bytes b := by
  subst hg
  have hbind := h.bind (f := fun a => Pure.pure (g a)) (Reads.pure (g a))
  rwa [List.append_nil] at hbind

theorem skip {n : Nat} (h : bytes.length = n) : Reads (ClassFile.skip n) bytes () :=
  (Reads.take h).map rfl

theorem number {width n : Nat} (h : n < 256 ^ width) :
    Reads (ClassFile.number width) (octets width n) n :=
  (Reads.take (length_octets width n)).map (bigEndian_octets h)

theorem number_two (i : UInt16) : Reads (ClassFile.number 2) (octets 2 i.toNat) i.toNat :=
  Reads.number i.toNat_lt

variable {ι : Type} {encode : ι → List UInt8} {items : List ι} {values : List α}

theorem times (h : List.Forall₂ (fun item value => Reads r (encode item) value) items values) :
    Reads (ClassFile.times r items.length) (items.flatMap encode) values := by
  induction h with
  | nil => exact Reads.pure []
  | cons hfirst _ ih =>
    rw [List.flatMap_cons]
    exact hfirst.bind (ih.map rfl)

/-- A table is read in two steps, its size and then so many items. -/
theorem counted {f : List α → Reader β} (hfit : items.length < 2 ^ 16)
    (h : List.Forall₂ (fun item value => Reads r (encode item) value) items values)
    (hf : Reads (f values) more b) :
    Reads (do f (← ClassFile.times r (← ClassFile.number 2)))
      (ClassFile.counted encode items ++ more) b := by
  rw [ClassFile.counted, List.append_assoc]
  exact (Reads.number hfit).bind ((Reads.times h).bind hf)

end Reads

theorem forall₂_skipped {ι : Type} {r : Reader Unit} {encode : ι → List UInt8} (items : List ι)
    (h : ∀ item, Reads r (encode item) ()) :
    List.Forall₂ (fun item value => Reads r (encode item) value) items (items.map fun _ => ()) := by
  rw [List.forall₂_map_right_iff, List.forall₂_same]
  exact fun item _ => h item

theorem reads_skipAttribute (a : Attribute) : Reads skipAttribute a.bytes () :=
  (Reads.skip (length_octets 2 _)).bind ((Reads.number a.fits).bind (Reads.skip rfl))

theorem reads_skipAttributes {attributes : List Attribute} (hfit : attributes.length < 2 ^ 16) :
    Reads skipAttributes (counted Attribute.bytes attributes) () := by
  have hread := Reads.counted (f := fun _ => Pure.pure ()) hfit
    (forall₂_skipped attributes reads_skipAttribute) (Reads.pure ())
  rwa [List.append_nil] at hread

namespace Member
variable (m : Member)

@[simp] theorem length_header : m.header.length = 6 := by
  simp [header]

theorem name_of_header : bigEndian ((m.header.drop 2).take 2) = m.name.toNat := by
  have hname : (m.header.drop 2).take 2 = octets 2 m.name.toNat := by
    simp [header, List.append_assoc]
  rw [hname, bigEndian_octets m.name.toNat_lt]

theorem descriptor_of_header : bigEndian (m.header.drop 4) = m.descriptor.toNat := by
  have hdescriptor : m.header.drop 4 = octets 2 m.descriptor.toNat := by
    rw [header, List.drop_left' (by simp)]
  rw [hdescriptor, bigEndian_octets m.descriptor.toNat_lt]

theorem reads_skipField : Reads skipField m.bytes () :=
  (Reads.skip m.length_header).bind (reads_skipAttributes m.fits)

end Member

namespace Entry

/-- The slots of an entry: a wide one leaves the second empty. -/
def slots (e : Entry) : List Constant :=
  e.constant :: List.replicate (e.size - 1) .other

theorem size_eq (e : Entry) : e.size = if isWide e.tag then 2 else 1 := by
  cases e <;> rfl

@[simp] theorem length_slots (e : Entry) : e.slots.length = e.size := by
  cases e <;> rfl

theorem tag_lt (e : Entry) : e.tag < 256 ^ 1 := by
  cases e <;> simp [tag]

/-- The table has the size of every payload that holds no name. -/
theorem payload?_tag (e : Entry) (htext : e.tag ≠ 1) (hclass : e.tag ≠ 7) :
    payload? e.tag = some e.payload.length := by
  cases e <;> simp_all [payload?, tag, payload]

theorem constant_of_tag (e : Entry) (htext : e.tag ≠ 1) (hclass : e.tag ≠ 7) :
    e.constant = .other := by
  cases e <;> simp_all [tag, constant]

theorem reads_constant (e : Entry) (index : Nat) :
    Reads (ClassFile.constant e.tag index) e.payload e.constant := by
  by_cases htext : e.tag = 1
  · cases e <;> cases htext
    rename_i value fits
    have hdecoded : String.ofList (Utf8.decodeReplacing (Utf8.encode value.toList)) = value := by
      rw [Utf8.decodeReplacing_encode, String.ofList_toList]
    exact (Reads.number fits).bind ((Reads.take rfl).map (congrArg Constant.text hdecoded))
  by_cases hclass : e.tag = 7
  · cases e <;> cases hclass
    exact (Reads.number_two _).map rfl
  · simp only [ClassFile.constant, htext, hclass, ↓reduceIte, e.payload?_tag htext hclass]
    rw [e.constant_of_tag htext hclass]
    exact (Reads.skip rfl).map rfl

theorem reads_slot (e : Entry) {left index : Nat} {bytes : List UInt8} {cs : List Constant}
    (h : Reads (ClassFile.slots left (index + 1) (isWide e.tag)) bytes cs) :
    Reads (ClassFile.slots (left + 1) index false) (e.bytes ++ bytes) (e.constant :: cs) := by
  rw [Entry.bytes, List.append_assoc]
  exact (Reads.number e.tag_lt).bind ((e.reads_constant index).bind (h.map rfl))

/-- The slots of an entry are those that its octets are read into, the covered one included. -/
theorem reads_slots (e : Entry) {left index : Nat} {bytes : List UInt8} {cs : List Constant}
    (h : Reads (ClassFile.slots left (index + e.size) false) bytes cs) :
    Reads (ClassFile.slots (e.size + left) index false) (e.bytes ++ bytes) (e.slots ++ cs) := by
  have hsize := e.size_eq
  rw [Entry.slots, Nat.add_comm]
  -- The slot that a wide entry covers takes no octets, so it is left to what follows the entry.
  split at hsize
  · rename_i hwide
    rw [hsize] at h ⊢
    refine e.reads_slot ?_
    rw [hwide]
    exact h.map rfl
  · rename_i hnarrow
    rw [hsize] at h ⊢
    refine e.reads_slot ?_
    rw [Bool.eq_false_iff.mpr hnarrow]
    exact h

end Entry

/-- What the reader makes of a constant pool. -/
def poolOf (entries : List Entry) : Pool :=
  ⟨entries.flatMap Entry.slots⟩

theorem reads_entries (entries : List Entry) (index : Nat) :
    Reads (slots (entries.map Entry.size).sum index false) (entries.flatMap Entry.bytes)
      (entries.flatMap Entry.slots) := by
  induction entries generalizing index with
  | nil => exact Reads.pure []
  | cons e rest ih => exact e.reads_slots (ih (index + e.size))

theorem reads_pool {entries : List Entry} (hfit : 1 + (entries.map Entry.size).sum < 2 ^ 16) :
    Reads pool (octets 2 (1 + (entries.map Entry.size).sum) ++ entries.flatMap Entry.bytes)
      (poolOf entries) := by
  refine (Reads.number hfit).bind ?_
  rw [Nat.add_sub_cancel_left]
  exact (reads_entries entries 1).map rfl

/-- Each entry is found at its index, whatever wide ones stand before it. -/
theorem EntryAt.get? {entries : List Entry} {index : Nat} {e : Entry} (h : EntryAt entries index e) :
    (poolOf entries).get? index = some e.constant := by
  obtain ⟨before, after, rfl, rfl⟩ := h
  have hlen : (before.flatMap Entry.slots).length = (before.map Entry.size).sum := by
    simp [List.length_flatMap]
  rw [Nat.add_comm]
  simp only [poolOf, Pool.get?, List.flatMap_append, List.flatMap_cons]
  rw [List.getElem?_append_right (Nat.le_of_eq hlen), hlen, Nat.sub_self]
  rfl

theorem EntryAt.ne_zero {entries : List Entry} {index : Nat} {e : Entry}
    (h : EntryAt entries index e) : index ≠ 0 := by
  obtain ⟨before, after, -, rfl⟩ := h
  omega

namespace Layout
variable {l : Layout}

theorem TextAt.text? {index : UInt16} {value : String} (h : l.TextAt index value) :
    (poolOf l.entries).text? index.toNat = some value := by
  obtain ⟨fits, hat⟩ := h
  simp only [Pool.text?, hat.get?, Entry.constant]

theorem TextAt.reads {index : UInt16} {value : String} (h : l.TextAt index value) :
    Reads (text (poolOf l.entries) index.toNat) [] value := by
  simp only [text, h.text?]
  exact Reads.pure value

theorem ClassAt.reads {index : UInt16} {name : String} (h : l.ClassAt index name) :
    Reads (className (poolOf l.entries) index.toNat) [] (some name) := by
  obtain ⟨i, hat, hname⟩ := h
  have hfound : (poolOf l.entries).className? index.toNat = some name := by
    simp only [Pool.className?, hat.get?, Entry.constant, hname.text?]
  simp only [className, hat.ne_zero, ↓reduceIte, hfound]
  exact Reads.pure (some name)

theorem reads_method {m : Member} {method : Method} (hname : l.TextAt m.name method.name)
    (hdescriptor : l.TextAt m.descriptor method.descriptor) :
    Reads (ClassFile.method (poolOf l.entries)) m.bytes method := by
  refine (Reads.take m.length_header).bind ?_
  rw [m.name_of_header, m.descriptor_of_header]
  exact hname.reads.bind_nil (hdescriptor.reads.bind_nil ((reads_skipAttributes m.fits).map rfl))

theorem Describes.reads_super {s : ClassStructure} (h : l.Describes s) :
    Reads (className (poolOf l.entries) l.superClass.toNat) [] s.super := by
  rcases h.super with ⟨hzero, hnone⟩ | ⟨above, hat, hsome⟩
  · rw [hzero, hnone]
    exact Reads.pure none
  · rw [hsome]
    exact hat.reads

theorem length_interfaces (l : Layout) :
    (l.interfaces.flatMap fun i => octets 2 i.toNat).length = 2 * l.interfaces.length := by
  simp [List.length_flatMap, Nat.mul_comm]

theorem Describes.reads_methods {s : ClassStructure} (h : l.Describes s) :
    List.Forall₂ (fun m method => Reads (ClassFile.method (poolOf l.entries)) m.bytes method)
      l.methods s.methods :=
  h.methods.imp fun _ _ hat => reads_method hat.1 hat.2

theorem reads_magic : Reads (number 4) [0xCA, 0xFE, 0xBA, 0xBE] magic := by
  have hoctets : octets 4 magic = [0xCA, 0xFE, 0xBA, 0xBE] := by decide
  rw [← hoctets]
  exact Reads.number (by decide)

theorem Describes.reads_head {s : ClassStructure} (h : l.Describes s) :
    Reads classStructure l.head s := by
  simp only [head, List.flatten_cons, List.flatten_nil]
  refine reads_magic.bind ?_
  simp only [ne_eq, not_true_eq_false, ↓reduceIte]
  refine (Reads.skip (by simp)).bind ?_
  refine (reads_pool l.entries_fit).bind ?_
  refine (Reads.skip (length_octets 2 _)).bind ?_
  refine (Reads.number_two _).bind (h.name.reads.bind_nil ?_)
  refine (Reads.number_two _).bind (h.reads_super.bind_nil ?_)
  rw [counted, List.append_assoc]
  refine (Reads.number l.interfaces_fit).bind ((Reads.skip l.length_interfaces).bind ?_)
  refine Reads.counted l.fields_fit (forall₂_skipped l.fields Member.reads_skipField) ?_
  refine Reads.counted l.methods_fit h.reads_methods ?_
  -- Only now is it checked that there is a name, after all that it is not needed for.
  split
  · contradiction
  · rename_i hempty
    exact absurd (Option.some.inj hempty) h.named
  · rename_i name hname
    cases hname
    exact Reads.pure s

/-- What a class file says of its class is what is read from it. -/
theorem read_written_class {l : Layout} {s : ClassStructure} (h : l.Describes s) :
    read l.bytes = .ok s := by
  rw [read, bytes, h.reads_head 0]
  rfl

/-- A class whose own entry stands before its name, with a wide constant between the two and another
at the end of the pool, a field and a method with attributes, and an octet after the class. -/
def forwardNamed : Layout where
  minor := 0
  major := 52
  entries := [.classRef 4, .long 7, .text "demo/Main" (by decide +kernel),
    .text "run" (by decide +kernel), .text "()V" (by decide +kernel),
    .text "Base" (by decide +kernel), .classRef 7, .double 1]
  access := 0x21
  thisClass := 1
  superClass := 8
  interfaces := [8]
  fields := [⟨2, 5, 6, [⟨5, [1, 2, 3], by decide⟩], by decide⟩]
  methods := [⟨1, 5, 6, [⟨6, [], by decide⟩], by decide⟩]
  attributes := [⟨5, [0], by decide⟩]
  trailing := [0xFF]
  entries_fit := by decide
  interfaces_fit := by decide
  fields_fit := by decide
  methods_fit := by decide
  attributes_fit := by decide

theorem read_forwardNamed :
    forwardNamed.Describes ⟨"demo/Main", some "Base", [⟨"run", "()V"⟩]⟩ ∧
      read forwardNamed.bytes = .ok ⟨"demo/Main", some "Base", [⟨"run", "()V"⟩]⟩ := by
  have hname : forwardNamed.ClassAt 1 "demo/Main" :=
    ⟨4, ⟨[], _, rfl, rfl⟩, _, [_, _], _, rfl, rfl⟩
  have hsuper : forwardNamed.ClassAt 8 "Base" :=
    ⟨7, ⟨[_, _, _, _, _, _], _, rfl, rfl⟩, _, [_, _, _, _, _], _, rfl, rfl⟩
  have hmethod : forwardNamed.TextAt 5 "run" ∧ forwardNamed.TextAt 6 "()V" :=
    ⟨⟨_, [_, _, _], _, rfl, rfl⟩, _, [_, _, _, _], _, rfl, rfl⟩
  have hdescribes : forwardNamed.Describes ⟨"demo/Main", some "Base", [⟨"run", "()V"⟩]⟩ :=
    ⟨by decide, hname, .inr ⟨"Base", hsuper, rfl⟩, .cons hmethod .nil⟩
  exact ⟨hdescribes, read_written_class hdescribes⟩

end Layout
end SourceLinks.ClassFile
