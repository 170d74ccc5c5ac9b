import COutline.Lexeme.Scan
import COutline.Token.Kind

/-!
# Reserved words

Thirty-two reserved words, grouped by first letter.  Inside a letter's group the words are
tried in table order and the first one that is a whole word at the head of the text wins: it
must not be followed by an identifier character, so `intx` and `int_` are no reserved word.
Thirteen of the words name types (kind `dataType`); the rest are control keywords.
-/

namespace COutline

/-- A reserved word and the kind of token it makes. -/
structure ReservedWord where
  word : String
  kind : TokenKind
deriving Repr, DecidableEq, Inhabited

namespace ReservedWord

private def controlWord (w : String) : ReservedWord := ⟨w, .keyword⟩
private def typeWord (w : String) : ReservedWord := ⟨w, .dataType⟩

/-- The reserved words that start with `c`, in table order. -/
def startingWith : Char → List ReservedWord
  | 'a' => [controlWord "auto"]
  | 'b' => [controlWord "break"]
  | 'c' => [controlWord "case", typeWord "char", controlWord "const", controlWord "continue"]
  | 'd' => [controlWord "default", typeWord "double", controlWord "do"]
  | 'e' => [controlWord "else", typeWord "enum", controlWord "extern"]
  | 'f' => [typeWord "float", controlWord "for"]
  | 'g' => [controlWord "goto"]
  | 'i' => [controlWord "if", typeWord "int"]
  | 'l' => [typeWord "long"]
  | 'r' => [controlWord "register", controlWord "return"]
  | 's' => [typeWord "short", typeWord "signed", controlWord "sizeof", controlWord "static", typeWord "struct", controlWord "switch"]
  | 't' => [typeWord "typedef"]
  | 'u' => [typeWord "union", typeWord "unsigned"]
  | 'v' => [typeWord "void", controlWord "volatile"]
  | 'w' => [controlWord "while"]
  | _ => []

/-- Every reserved word, letter by letter from `a` to `z`, in table order. -/
def all : List ReservedWord :=
  "abcdefghijklmnopqrstuvwxyz".toList.flatMap startingWith

/-- Whether `r.word` stands at the head of `cs` as a whole word. -/
def heads (r : ReservedWord) (cs : List Char) : Bool :=
  r.word.toList.isPrefixOf cs &&
    !((cs.drop r.word.length).head?.any Lexeme.isIdentifierContinue)

/-- The first reserved word of the head letter's group that stands at the head of `cs`. -/
def atHead? (cs : List Char) : Option ReservedWord :=
  match cs with
  | [] => none
  | c :: _ => (startingWith c).find? (·.heads cs)

/-- Whether `w` is exactly a reserved word naming a type. -/
def isDataType (w : String) : Bool :=
  match atHead? w.toList with
  | some r => r.word == w && r.kind == .dataType
  | none => false

end ReservedWord

end COutline

namespace COutline.ReservedWord

theorem word_length_pos_of_mem (c : Char) : ∀ r ∈ startingWith c, 0 < r.word.length := by
  unfold startingWith
  split <;> decide

/-- A reserved word found at the head of a text is never empty. -/
theorem atHead?_word_pos {cs : List Char} {r : ReservedWord} (h : atHead? cs = some r) :
    0 < r.word.length := by
  unfold atHead? at h
  split at h
  · simp at h
  · exact word_length_pos_of_mem _ r (List.mem_of_find?_eq_some h)

end COutline.ReservedWord
