import PlexusTransport.Lib.Text

/-! # Texts that are JSON

The grammar of a value with its blanks, as a text that is kept whole holds it.
-/

namespace PlexusTransport.JsonText

def isBlank (c : Char) : Bool := c == ' ' || c == '\n' || c == '\r' || c == '\t'

def isDigit (c : Char) : Bool := '0' ≤ c && c ≤ '9'

def isHex (c : Char) : Bool := isDigit c || ('a' ≤ c && c ≤ 'f') || ('A' ≤ c && c ≤ 'F')

def Blank (t : Text) : Prop := ∀ c ∈ t, isBlank c

def Digits (t : Text) : Prop := t ≠ [] ∧ ∀ c ∈ t, isDigit c

inductive Whole : Text → Prop where
  | zero : Whole ['0']
  | digits {d : Char} {rest : Text} (first : d ≠ '0') (all : Digits (d :: rest)) :
      Whole (d :: rest)

inductive Fraction : Text → Prop where
  | none : Fraction []
  | some {t : Text} (digits : Digits t) : Fraction ('.' :: t)

inductive Exponent : Text → Prop where
  | none : Exponent []
  | some {e : Char} {sign t : Text} (mark : e = 'e' ∨ e = 'E')
      (signed : sign = [] ∨ sign = ['+'] ∨ sign = ['-']) (digits : Digits t) :
      Exponent (e :: sign ++ t)

/-- What is between a string's quotes. -/
inductive Chars : Text → Prop where
  | nil : Chars []
  | char {c : Char} {t : Text} (plain : ' ' ≤ c ∧ c ≠ '"' ∧ c ≠ '\\') (rest : Chars t) :
      Chars (c :: t)
  | escape {c : Char} {t : Text} (known : c ∈ ['"', '\\', '/', 'b', 'f', 'n', 'r', 't'])
      (rest : Chars t) : Chars ('\\' :: c :: t)
  | unicode {a b c d : Char} {t : Text} (hex : ∀ x ∈ [a, b, c, d], isHex x) (rest : Chars t) :
      Chars ('\\' :: 'u' :: a :: b :: c :: d :: t)

/-- A padded value is one with blanks about it. -/
inductive Part where
  | value
  | padded
  | elements
  | members

inductive Reads : Part → Text → Prop where
  | word {t : Text} (named : t = "null".toList ∨ t = "true".toList ∨ t = "false".toList) :
      Reads .value t
  | number {sign whole fraction exponent : Text} (signed : sign = [] ∨ sign = ['-'])
      (whole' : Whole whole) (fraction' : Fraction fraction) (exponent' : Exponent exponent) :
      Reads .value (sign ++ whole ++ fraction ++ exponent)
  | string {t : Text} (chars : Chars t) : Reads .value ('"' :: t ++ ['"'])
  | emptyArray {w : Text} (blank : Blank w) : Reads .value ('[' :: w ++ [']'])
  | array {t : Text} (elements : Reads .elements t) : Reads .value ('[' :: t ++ [']'])
  | emptyObject {w : Text} (blank : Blank w) : Reads .value ('\x7b' :: w ++ ['\x7d'])
  | object {t : Text} (members : Reads .members t) : Reads .value ('\x7b' :: t ++ ['\x7d'])
  | padded {w v w' : Text} (before : Blank w) (value : Reads .value v) (after : Blank w') :
      Reads .padded (w ++ v ++ w')
  | element {t : Text} (only : Reads .padded t) : Reads .elements t
  | elements {t rest : Text} (first : Reads .padded t) (others : Reads .elements rest) :
      Reads .elements (t ++ ',' :: rest)
  | member {w k w' t : Text} (before : Blank w) (name : Chars k) (after : Blank w')
      (value : Reads .padded t) : Reads .members (w ++ '"' :: k ++ '"' :: w' ++ ':' :: t)
  | members {t rest : Text} (first : Reads .members t) (others : Reads .members rest) :
      Reads .members (t ++ ',' :: rest)

theorem chars_of_plain {t : Text} (plain : ∀ c ∈ t, ' ' ≤ c ∧ c ≠ '"' ∧ c ≠ '\\') : Chars t := by
  induction t with
  | nil => exact .nil
  | cons c t ih => exact .char (plain c (.head _)) (ih fun d mem => plain d (.tail _ mem))

/-- A member with no blanks. -/
theorem member_of_plain {k v : Text} (plain : ∀ c ∈ k, ' ' ≤ c ∧ c ≠ '"' ∧ c ≠ '\\')
    (value : Reads .value v) : Reads .members ('"' :: k ++ ['"'] ++ ':' :: v) := by
  have none : Blank [] := by simp [Blank]
  have padded : Reads .padded ([] ++ v ++ []) := .padded none value none
  rw [List.append_nil, List.nil_append] at padded
  exact .member none (chars_of_plain plain) none padded

end PlexusTransport.JsonText

namespace PlexusTransport

/-- The text of one JSON value, with no blanks about it. -/
def IsJsonText (t : Text) : Prop := JsonText.Reads .value t

end PlexusTransport
