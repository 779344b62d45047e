/-
ModuleHierarchy/Proofs/Token/Gap.lean

What is dropped between tokens.  Whether a lexeme starts with a character depends on that character
and on the one behind it, and on nothing else (`next?_eq_none_iff`): a letter, a digit and most marks
always start one, and a few marks start one in front of certain characters only.

A text is a gap, the first token, another gap and so on, up to a last gap, and in the gaps no
character starts a lexeme (`woven_ofChars`).  The walk takes a character into a token or drops it, so
one lemma for a dropped character (`Woven.cons_dropped`) and one constructor for a token are enough:

    Woven (walk line pending prev s) (s.drop pending)                             (`woven_walk`).
-/
import ModuleHierarchy.Proofs.Comment.Closed
import ModuleHierarchy.Proofs.Token.Canonical
import ModuleHierarchy.Proofs.Token.Spelling

namespace ModuleHierarchy

open Text

/-! ### Characters that start no lexeme -/

namespace Lexeme

variable {prev : Option Char} {c : Char} {s : List Char}

/-- What is true of a character that starts no lexeme; `next` is the character behind it, if any. -/
structure StartsNone (c : Char) (next : Option Char) : Prop where
  name : isNameStart c = false
  digit : isDecimalDigit c = false
  mark : c ∉ punctuation
  less : c ≠ '<'
  greater : c ≠ '>'
  hash : c = '#' → next ≠ some '('
  bang : c = '!' → next ≠ some '='
  ampersand : c = '&' → next ≠ some '&'
  bar : c = '|' → next ≠ some '|'
  tilde : c = '~' → next ≠ some '&' ∧ next ≠ some '|'
  apostrophe : c = '\x27' → next.any isWordChar = false
  backtick : c = '\x60' → next.any isWordChar = false

theorem paramOpen?_eq_none_iff :
    paramOpen? (c :: s) = none ↔ (c = '#' → s.head? ≠ some '(') := by
  rw [paramOpen?_eq_ite, ite_eq_right_iff, List.isPrefixOf_iff_prefix, Comment.mark_prefix_cons]
  simp [eq_comm]

theorem marked?_eq_none_iff :
    marked? (c :: s) = none ↔
      (c = '\x27' → s.head?.any isWordChar = false) ∧
        (c = '\x60' → s.head?.any isWordChar = false) := by
  by_cases hquote : c = '\x27'
  · subst hquote
    rw [marked?_apostrophe, Option.map_eq_none_iff]
    cases s with
    | nil => simp
    | cons d s => simp [Option.filter_some]
  by_cases htick : c = '\x60'
  · subst htick
    simp [marked?_backtick]
  · simp [marked?_eq_none hquote htick, hquote, htick]

theorem symbol?_eq_none_iff :
    symbol? (c :: s) = none ↔
      c ∉ punctuation ∧ (∀ v ∈ operators, ¬ v <+: c :: s) ∧ marked? (c :: s) = none := by
  rw [symbol?]
  split
  · next hc => simp [hc]
  · next hc =>
    rw [Option.or_eq_none_iff, List.find?_eq_none]
    simp [hc]

/-- An operator at the front of a text shows in its first two characters.  The `==` is not asked
for, since the equals sign is a punctuation mark. -/
theorem operators_notPrefix_iff (hc : c ∉ punctuation) :
    (∀ v ∈ operators, ¬ v <+: c :: s) ↔
      c ≠ '<' ∧ c ≠ '>' ∧ (c = '!' → s.head? ≠ some '=') ∧ (c = '&' → s.head? ≠ some '&') ∧
        (c = '|' → s.head? ≠ some '|') ∧
        (c = '~' → s.head? ≠ some '&' ∧ s.head? ≠ some '|') := by
  have hequals : c ≠ '=' := by
    rintro rfl
    exact hc (by decide)
  have hone (x : Char) : [x] <+: c :: s ↔ c = x := by
    rw [List.cons_prefix_cons, and_iff_left List.nil_prefix, eq_comm]
  have htwo (x y : Char) : [x, y] <+: c :: s ↔ c = x ∧ s.head? = some y := by
    rw [Comment.mark_prefix_cons, eq_comm]
  have hops : operators = [['<', '='], ['=', '='], ['!', '='], ['<'], ['>'], ['&', '&'],
    ['|', '|'], ['~', '&'], ['~', '|']] := rfl
  simp only [hops, List.forall_mem_cons, hone, htwo, not_and]
  constructor
  · rintro ⟨-, -, hbang, hless, hgreater, hampersand, hbar, htilde, htilde', -⟩
    exact ⟨hless, hgreater, hbang, hampersand, hbar, fun hc => ⟨htilde hc, htilde' hc⟩⟩
  · rintro ⟨hless, hgreater, hbang, hampersand, hbar, htilde⟩
    exact ⟨fun hc => absurd hc hless, fun hc => absurd hc hequals, hbang, hless, hgreater,
      hampersand, hbar, fun hc => (htilde hc).1, fun hc => (htilde hc).2,
      fun _ hv => absurd hv List.not_mem_nil⟩

/-- A character starts no lexeme if and only if it and the character behind it say so. -/
theorem next?_eq_none_iff : next? prev (c :: s) = none ↔ StartsNone c s.head? := by
  simp only [next?, Option.or_eq_none_iff, Option.map_eq_none_iff, paramOpen?_eq_none_iff,
    ident?_eq_none_iff, number?_eq_none_iff, symbol?_eq_none_iff, marked?_eq_none_iff]
  constructor
  · rintro ⟨-, hash, name, digit, mark, hops, apostrophe, backtick⟩
    obtain ⟨less, greater, bang, ampersand, bar, tilde⟩ := (operators_notPrefix_iff mark).1 hops
    exact { name, digit, mark, less, greater, hash, bang, ampersand, bar, tilde, apostrophe,
            backtick }
  · intro h
    exact ⟨keyword?_eq_none h.name, h.hash, h.name, h.digit, h.mark,
      (operators_notPrefix_iff h.mark).2 ⟨h.less, h.greater, h.bang, h.ampersand, h.bar, h.tilde⟩,
      h.apostrophe, h.backtick⟩

end Lexeme

namespace Token

open Lexeme

variable {c : Char} {s g rest : List Char} {t : Token} {ts : List Token} {line : Nat}

/-! ### Gaps -/

/-- No character of the gap starts a lexeme, in front of the rest of the gap and what follows. -/
def Gap (g rest : List Char) : Prop :=
  ∀ p c q, g = p ++ c :: q → StartsNone c (q ++ rest).head?

theorem gap_nil (rest : List Char) : Gap [] rest := by
  intro p c q h
  exact absurd h.symm (List.append_ne_nil_of_right_ne_nil p (List.cons_ne_nil c q))

theorem Gap.cons (h : Gap g rest) (hc : StartsNone c (g ++ rest).head?) : Gap (c :: g) rest := by
  intro p d q hg
  cases p with
  | nil =>
    obtain ⟨rfl, rfl⟩ := List.cons.inj hg
    exact hc
  | cons e p => exact h p d q (List.cons.inj hg).2

/-- The text is a gap, the first token, a gap, the second token and so on, up to a last gap. -/
inductive Woven : List Token → List Char → Prop
  | last {g : List Char} (hg : Gap g []) : Woven [] g
  | token {g : List Char} {t : Token} {ts : List Token} {s : List Char}
      (hg : Gap g (t.text.toList ++ s)) : Woven ts s → Woven (t :: ts) (g ++ (t.text.toList ++ s))

/-- A character that is dropped belongs to the first gap. -/
theorem Woven.cons_dropped (h : Woven ts s) (hc : StartsNone c s.head?) : Woven ts (c :: s) := by
  cases h with
  | last hg => exact .last (hg.cons (by rwa [List.append_nil]))
  | token hg h => exact .token (hg.cons hc) h

/-- In front of a token there is an empty gap at least. -/
theorem Woven.cons_token (h : Woven ts s) (t : Token) : Woven (t :: ts) (t.text.toList ++ s) :=
  .token (gap_nil _) h

/-! ### The walk -/

theorem woven_walk (line pending : Nat) (prev : Option Char) (s : List Char) :
    Woven (walk line pending prev s) (s.drop pending) := by
  fun_induction walk line pending prev s with
  | case1 => exact .last (by rw [List.drop_nil]; exact gap_nil [])
  | case2 prev pending c s ih => exact ih
  | case3 prev c s l hl ih =>
    -- the lexeme is spelled by this character and the pending ones
    have htoken := ih.cons_token (ofLexeme line l)
    have htext : (ofLexeme line l).text.toList = c :: s.take (l.spelling.length - 1) := by
      rw [toList_text_ofLexeme, ← next?_spelling_eq_cons hl]
    rwa [htext, List.cons_append, List.take_append_drop] at htoken
  | case4 prev c s hnone ih => exact ih.cons_dropped (next?_eq_none_iff.1 hnone)

/-- **Only what starts no token is dropped.**  The tokens of a text carry the number of its line and
are not empty, and the text is made of their spellings, in order, with gaps before, between and
behind them, in which no character starts a lexeme. -/
theorem woven_ofChars (line : Nat) (s : List Char) :
    (∀ t ∈ ofChars line s, t.line = line ∧ t.text ≠ "") ∧ Woven (ofChars line s) s := by
  refine ⟨fun t ht => ?_, woven_walk line 0 none s⟩
  exact ⟨line_eq_of_mem_ofChars ht, text_ne_empty_of_mem_ofChars ht⟩

/-- Longer spellings that do not come about leave their characters to others: an octal literal is a
number, a quoted letter and a number, and the hash, the ampersand and the exclamation mark start no
token here. -/
theorem woven_ofChars_given_up :
    let s := "8'o7 #&!x".toList
    let ts : List Token :=
      [⟨.number, "8", 5⟩, ⟨.symbol, "'o", 5⟩, ⟨.number, "7", 5⟩, ⟨.ident, "x", 5⟩]
    ofChars 5 s = ts ∧ (∀ t ∈ ts, t.line = 5 ∧ t.text ≠ "") ∧ Woven ts s := by
  intro s ts
  have hts : ofChars 5 s = ts := by decide
  exact ⟨hts, hts ▸ woven_ofChars 5 s⟩

end Token

end ModuleHierarchy
