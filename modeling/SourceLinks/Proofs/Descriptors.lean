import SourceLinks.ClassFile.Basic
import SourceLinks.Proofs.Lines

namespace SourceLinks.Descriptor

inductive Primitive where
  | byte
  | char
  | double
  | float
  | int
  | long
  | short
  | boolean

def Primitive.letter : Primitive → Char
  | .byte => 'B'
  | .char => 'C'
  | .double => 'D'
  | .float => 'F'
  | .int => 'I'
  | .long => 'J'
  | .short => 'S'
  | .boolean => 'Z'

/-- The name of a class as descriptors write it. Of all characters only four are kept out of its
segments. -/
structure Name where
  segments : List (List Char)
  inhabited : segments ≠ []
  nonempty : ∀ segment ∈ segments, segment ≠ []
  plain : ∀ segment ∈ segments, ∀ c ∈ segment, c ∉ ['.', ';', '[', '/']

def Name.chars (n : Name) : List Char :=
  Text.joinWith ['/'] n.segments

inductive ValueType where
  | primitive (p : Primitive)
  | object (name : Name)
  | array (element : ValueType)

def ValueType.chars : ValueType → List Char
  | .primitive p => [p.letter]
  | .object name => 'L' :: name.chars ++ [';']
  | .array element => '[' :: element.chars

/-- What a method gives back. -/
inductive Result where
  | void
  | value (type : ValueType)

def Result.chars : Result → List Char
  | .void => ['V']
  | .value type => type.chars

/-- The class on which a call of the result would go on. -/
def Result.class? : Result → Option String
  | .value (.object name) => some (String.ofList name.chars)
  | _ => none

structure Signature where
  parameters : List ValueType
  result : Result

def Signature.text (s : Signature) : String :=
  String.ofList ('(' :: s.parameters.flatMap ValueType.chars ++ ')' :: s.result.chars)

/-- The class that a type names: its own, or that of its elements. -/
def ValueType.named? : ValueType → Option Name
  | .primitive _ => none
  | .object name => some name
  | .array element => element.named?

def Result.named? : Result → Option Name
  | .void => none
  | .value type => type.named?

/-- What a name with a parenthesis is taken for: the text behind its last parenthesis, if that looks
like a class type. -/
def Name.mistaken? (n : Name) : Option String :=
  match Text.afterLast ')' n.chars with
  | 'L' :: c :: rest => some (String.ofList (c :: rest))
  | _ => none

/-- The class of a text that is a class type. -/
def classType? : List Char → Option String
  | 'L' :: rest =>
    if rest.getLast? = some ';' ∧ 1 < rest.length then some (String.ofList rest.dropLast) else none
  | _ => none

theorem classType?_other {cs : List Char} (h : ∀ rest, cs ≠ 'L' :: rest) :
    classType? cs = none := by
  rw [classType?]
  exact h

/-- Parameters are of no concern, whatever is in their names. -/
theorem returnType_text (s : Signature) :
    returnType (some s.text) = .ok (classType? (Text.afterLast ')' s.result.chars)) := by
  have hlast : Text.afterLast ')' s.text.toList = Text.afterLast ')' s.result.chars := by
    rw [Signature.text, String.toList_ofList, Text.afterLast_append, if_pos List.mem_cons_self,
      Text.afterLast_cons_sep]
  have hmem : ')' ∈ s.text.toList := by
    simp [Signature.text]
  simp only [returnType, Option.getD_some, hmem, ↓reduceIte, hlast]
  generalize Text.afterLast ')' s.result.chars = cs
  split
  · simp only [classType?]
    split <;> rfl
  · rename_i hother
    rw [classType?_other hother]

theorem classType?_class {cs : List Char} (h : cs ≠ []) :
    classType? ('L' :: cs ++ [';']) = some (String.ofList cs) := by
  have hlong : 1 < (cs ++ [';']).length := by
    have hpos := List.length_pos_iff.mpr h
    simp only [List.length_append, List.length_singleton]
    omega
  simp only [List.cons_append, classType?, List.getLast?_concat, hlong, and_self, ↓reduceIte,
    List.dropLast_concat]

theorem Name.chars_ne_nil (n : Name) : n.chars ≠ [] := by
  obtain ⟨segment, rest, hs⟩ := List.exists_cons_of_ne_nil n.inhabited
  have hsegment := n.nonempty segment (by simp [hs])
  rw [Name.chars, hs, Text.joinWith_cons]
  simp [hsegment]

/-- A parenthesis in a type is one in the name of its class. -/
theorem ValueType.parenthesis_mem {t : ValueType} :
    ')' ∈ t.chars ↔ ∃ name, t.named? = some name ∧ ')' ∈ name.chars := by
  induction t with
  | primitive p => cases p <;> simp [chars, named?, Primitive.letter]
  | object name => simp [chars, named?]
  | array element ih => simp [chars, named?, ih]

theorem ValueType.afterLast_chars {t : ValueType} {name : Name} (hname : t.named? = some name)
    (hin : ')' ∈ name.chars) :
    Text.afterLast ')' t.chars = Text.afterLast ')' name.chars ++ [';'] := by
  induction t with
  | primitive p => cases hname
  | object own =>
    cases hname
    rw [chars, Text.afterLast_append, if_neg (by simp), Text.afterLast_cons, if_pos hin]
  | array element ih =>
    have hmem : ')' ∈ element.chars := ValueType.parenthesis_mem.mpr ⟨name, hname, hin⟩
    rw [chars, Text.afterLast_cons, if_pos hmem]
    exact ih hname

/-- A name with a parenthesis is read from its last one on. -/
theorem classType?_behind (n : Name) :
    classType? (Text.afterLast ')' n.chars ++ [';']) = n.mistaken? := by
  unfold Name.mistaken?
  generalize Text.afterLast ')' n.chars = cs
  cases cs with
  | nil => rfl
  | cons c rest =>
    by_cases hc : c = 'L'
    · subst hc
      cases rest with
      | nil => rfl
      | cons d rest => exact classType?_class (List.cons_ne_nil d rest)
    · rw [classType?_other (by simp [hc])]
      split
      · rename_i heq
        exact absurd (List.cons.inj heq).1 hc
      · rfl

/-- It is never read as the whole name. -/
theorem Name.mistaken?_ne (n : Name) : n.mistaken? ≠ some (String.ofList n.chars) := by
  intro heq
  have hshort : (Text.afterLast ')' n.chars).length ≤ n.chars.length := by
    have hsub := (List.takeWhile_sublist (· != ')') (l := n.chars.reverse)).length_le
    rwa [List.length_reverse, ← List.length_reverse] at hsub
  unfold mistaken? at heq
  split at heq
  · rename_i c rest hbehind
    have hwhole := String.ofList_injective (Option.some.inj heq)
    rw [hbehind, ← hwhole, List.length_cons] at hshort
    omega
  · cases heq

namespace Result
variable {r : Result} {name : Name}

theorem parenthesis_mem : ')' ∈ r.chars ↔ ∃ name, r.named? = some name ∧ ')' ∈ name.chars := by
  cases r with
  | void => simp [chars, named?]
  | value type => exact type.parenthesis_mem

theorem class?_eq (hname : r.named? = some name) :
    r.class? = none ∨ r.class? = some (String.ofList name.chars) := by
  cases r with
  | void => exact .inl rfl
  | value type =>
    cases type with
    | primitive p => exact .inl rfl
    | object own =>
      cases hname
      exact .inr rfl
    | array element => exact .inl rfl

theorem classType?_plain (h : ')' ∉ r.chars) :
    classType? (Text.afterLast ')' r.chars) = r.class? := by
  rw [Text.afterLast_of_not_mem h]
  cases r with
  | void => rfl
  | value type =>
    cases type with
    | primitive p => cases p <;> rfl
    | object name => exact classType?_class name.chars_ne_nil
    | array element => rfl

theorem classType?_parenthesized (hname : r.named? = some name) (hin : ')' ∈ name.chars) :
    classType? (Text.afterLast ')' r.chars) = name.mistaken? := by
  cases r with
  | void => cases hname
  | value type => rw [chars, type.afterLast_chars hname hin, classType?_behind]

end Result

/-- Every descriptor is read, and as the class that it returns, or as none if it returns no class,
exactly if the name of that class has no parenthesis in it; where an array of the class is returned
it may have one, if what follows it does not look like a class type. In any other case what follows
it is taken for the result. -/
theorem returned_class_is_read (s : Signature) :
    (returnType (some s.text) = .ok s.result.class? ↔
      ∀ name, s.result.named? = some name → ')' ∈ name.chars →
        s.result.class? = none ∧ name.mistaken? = none) ∧
    ∀ name, s.result.named? = some name → ')' ∈ name.chars →
      returnType (some s.text) = .ok name.mistaken? := by
  have hmistaken : ∀ name, s.result.named? = some name → ')' ∈ name.chars →
      returnType (some s.text) = .ok name.mistaken? := by
    intro name hname hin
    rw [returnType_text, Result.classType?_parenthesized hname hin]
  refine ⟨⟨?_, ?_⟩, hmistaken⟩
  · intro hright name hname hin
    have hsame : name.mistaken? = s.result.class? :=
      Except.ok.inj ((hmistaken name hname hin).symm.trans hright)
    rcases Result.class?_eq hname with hnone | hsome
    · exact ⟨hnone, hsame.trans hnone⟩
    · exact absurd (hsame.trans hsome) name.mistaken?_ne
  · intro hnames
    by_cases hin : ')' ∈ s.result.chars
    · obtain ⟨name, hname, hin⟩ := Result.parenthesis_mem.mp hin
      obtain ⟨hclass, hnone⟩ := hnames name hname hin
      rw [hmistaken name hname hin, hnone, hclass]
    · rw [returnType_text, Result.classType?_plain hin]

/-- A class whose name has a parenthesis is missed or taken for another, and an array of such a
class for a class. -/
theorem parenthesis_hides_returned_class :
    (∃ s : Signature, s.text = "()La)b;" ∧ s.result.class? = some "a)b" ∧
      returnType (some s.text) = .ok none) ∧
    (∃ s : Signature, s.text = "()La)Lb;" ∧ s.result.class? = some "a)Lb" ∧
      returnType (some s.text) = .ok (some "b")) ∧
    ∃ s : Signature, s.text = "()[La)Lb;" ∧ s.result.class? = none ∧
      returnType (some s.text) = .ok (some "b") := by
  let missed : Name := ⟨[['a', ')', 'b']], by simp, by simp, by simp⟩
  let taken : Name := ⟨[['a', ')', 'L', 'b']], by simp, by simp, by simp⟩
  exact ⟨⟨⟨[], .value (.object missed)⟩, by decide +kernel⟩,
    ⟨⟨[], .value (.object taken)⟩, by decide +kernel⟩,
    ⟨⟨[], .value (.array (.object taken))⟩, by decide +kernel⟩⟩

end SourceLinks.Descriptor
