/-!
Texts as bytes and back, cut at a separator, hexadecimal digits, and texts of nothing but blank
characters, which are those of the Unicode property White_Space.
-/

set_option autoImplicit false

namespace LagForecast.Text

def bytes (s : String) : List UInt8 := s.toByteArray.data.toList

def ofBytes? (b : List UInt8) : Option String := String.fromUTF8? ⟨b.toArray⟩

@[simp] theorem ofBytes?_bytes (s : String) : ofBytes? (bytes s) = some s := by
  have h : (⟨s.toByteArray.data.toList.toArray⟩ : ByteArray) = s.toByteArray := rfl
  simp only [ofBytes?, bytes, h, String.fromUTF8?, s.isValidUTF8, dif_pos]
  rfl

@[simp] theorem bytes_append (s t : String) : bytes (s ++ t) = bytes s ++ bytes t := by
  simp [bytes]

/-- Put a character in front of the first of some parts, or begin a new part at a separator. -/
def addToParts (separator c : Char) : List (List Char) → List (List Char)
  | [] => if c = separator then [[], []] else [[c]]
  | part :: rest => if c = separator then [] :: part :: rest else (c :: part) :: rest

/-- The parts of a text between separators; there is one more of them than separators. -/
def parts (separator : Char) (s : String) : List (List Char) :=
  s.toList.foldr (addToParts separator) [[]]

def lowered (s : String) : String := String.ofList (s.toList.map Char.toLower)

/-- Whether two texts are the same but for ASCII capitals. -/
def sameLetters (a b : String) : Bool := lowered a = lowered b

def hexDigit (n : Nat) : Char :=
  if n < 10 then Char.ofNat (48 + n) else Char.ofNat (87 + n)

def hexValue? (c : Char) : Option Nat :=
  if '0' ≤ c ∧ c ≤ '9' then some (c.toNat - 48)
  else if 'a' ≤ c ∧ c ≤ 'f' then some (c.toNat - 87)
  else if 'A' ≤ c ∧ c ≤ 'F' then some (c.toNat - 55)
  else none

def hexDigits : Nat → Nat → List Char
  | 0, _ => []
  | width + 1, n => hexDigits width (n / 16) ++ [hexDigit (n % 16)]

def hexNumber (n : Nat) : List Char := hexDigits (Nat.log2 n / 4 + 1) n

def blankRanges : List (Nat × Nat) :=
  [(0x09, 0x0D), (0x20, 0x20), (0x85, 0x85), (0xA0, 0xA0), (0x1680, 0x1680), (0x2000, 0x200A),
   (0x2028, 0x2029), (0x202F, 0x202F), (0x205F, 0x205F), (0x3000, 0x3000)]

def isBlank (c : Char) : Bool := blankRanges.any fun r => r.1 ≤ c.toNat && c.toNat ≤ r.2

def Blank (s : String) : Prop := ∀ c ∈ s.toList, isBlank c = true

instance (s : String) : Decidable (Blank s) := List.decidableBAll _ _

def trim (s : String) : String :=
  String.ofList (((s.toList.dropWhile isBlank).reverse.dropWhile isBlank).reverse)

theorem trim_eq_empty_iff (s : String) : trim s = "" ↔ Blank s := by
  have dropWhile_eq_nil : ∀ l : List Char, l.dropWhile isBlank = [] ↔ ∀ c ∈ l, isBlank c = true := by
    intro l
    induction l with
    | nil => simp
    | cons a rest ih => by_cases h : isBlank a <;> simp [h, ih]
  have hnil : trim s = "" ↔ ((s.toList.dropWhile isBlank).reverse.dropWhile isBlank).reverse = [] := by
    rw [trim, ← String.toList_inj]
    simp
  rw [hnil, List.reverse_eq_nil_iff, dropWhile_eq_nil]
  simp only [List.mem_reverse, Blank]
  rw [← dropWhile_eq_nil s.toList]
  constructor
  · intro h
    cases hd : s.toList.dropWhile isBlank with
    | nil => rfl
    | cons a rest =>
      have ha : isBlank a = true := h a (by simp [hd])
      have := List.head_dropWhile_not isBlank (l := s.toList) (by simp [hd])
      simp [hd, ha] at this
  · intro h c hc
    simp [h] at hc

end LagForecast.Text
