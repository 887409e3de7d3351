import DracVms.Library.Json

/-! Words over an alphabet as numbers, the most significant symbol first. -/
namespace DracVms.Radix

open List

open Json (Text)

structure Alphabet where
  symbols : List Char
  distinct : symbols.Nodup
  many : 1 < symbols.length

namespace Alphabet

variable (alphabet : Alphabet)

def base : ℕ := alphabet.symbols.length

/-- A word of this width over the alphabet. -/
def Spells (width : ℕ) (word : Text) : Prop :=
  word.length = width ∧ ∀ c ∈ word, c ∈ alphabet.symbols

instance (width : ℕ) (word : Text) : Decidable (alphabet.Spells width word) :=
  @instDecidableAnd _ _ inferInstance (List.decidableBAll (fun c => c ∈ alphabet.symbols) word)

def digitsOf (word : Text) : List ℕ := word.reverse.map alphabet.symbols.idxOf

def valueOf (word : Text) : ℕ := Nat.ofDigits alphabet.base (alphabet.digitsOf word)

def symbol (digit : ℕ) : Char := alphabet.symbols.getD digit ' '

def write (width n : ℕ) : Text :=
  ((Nat.digitsAppend alphabet.base width n).map alphabet.symbol).reverse

variable {alphabet}

theorem symbol_idxOf {c : Char} (known : c ∈ alphabet.symbols) :
    alphabet.symbol (alphabet.symbols.idxOf c) = c := by
  have within := idxOf_lt_length_iff.mpr known
  rw [symbol, List.getD_eq_getElem?_getD, List.getElem?_eq_getElem within, Option.getD_some]
  exact getElem_idxOf within

theorem idxOf_symbol {digit : ℕ} (small : digit < alphabet.base) :
    alphabet.symbols.idxOf (alphabet.symbol digit) = digit := by
  rw [symbol, List.getD_eq_getElem?_getD, List.getElem?_eq_getElem small, Option.getD_some]
  exact List.Nodup.idxOf_getElem alphabet.distinct digit small

section

variable {width : ℕ} {word : Text} (spells : alphabet.Spells width word)

include spells

theorem digitsOf_spells :
    (alphabet.digitsOf word).length = width ∧ ∀ d ∈ alphabet.digitsOf word, d < alphabet.base := by
  constructor
  · rw [digitsOf, length_map, length_reverse]
    exact spells.1
  · intro d listed
    obtain ⟨c, present, rfl⟩ := mem_map.mp listed
    exact idxOf_lt_length_iff.mpr (spells.2 c (mem_reverse.mp present))

theorem valueOf_lt : alphabet.valueOf word < alphabet.base ^ width :=
  Nat.mapsTo_ofDigits alphabet.many width (digitsOf_spells spells)

theorem write_valueOf : alphabet.write width (alphabet.valueOf word) = word := by
  have back : Nat.digitsAppend alphabet.base width
      (Nat.ofDigits alphabet.base (alphabet.digitsOf word)) = alphabet.digitsOf word :=
    (Nat.setInvOn_digitsAppend_ofDigits alphabet.many width).1 (digitsOf_spells spells)
  have letters : (alphabet.digitsOf word).map alphabet.symbol = word.reverse := by
    rw [digitsOf, map_map]
    conv_rhs => rw [← map_id word.reverse]
    apply map_congr_left
    intro c present
    exact symbol_idxOf (spells.2 c (mem_reverse.mp present))
  show ((Nat.digitsAppend alphabet.base width
    (Nat.ofDigits alphabet.base (alphabet.digitsOf word))).map alphabet.symbol).reverse = word
  rw [back, letters, reverse_reverse]

end

section Written

variable {width n : ℕ}

theorem write_spells (small : n < alphabet.base ^ width) :
    alphabet.Spells width (alphabet.write width n) := by
  constructor
  · rw [write, length_reverse, length_map]
    exact Nat.length_digitsAppend alphabet.many width small
  · intro c listed
    obtain ⟨d, present, rfl⟩ := mem_map.mp (mem_reverse.mp listed)
    have below : d < alphabet.symbols.length :=
      Nat.lt_of_mem_digitsAppend alphabet.many width d present
    rw [symbol, List.getD_eq_getElem?_getD, List.getElem?_eq_getElem below, Option.getD_some]
    exact getElem_mem below

theorem valueOf_write (small : n < alphabet.base ^ width) :
    alphabet.valueOf (alphabet.write width n) = n := by
  have digits : alphabet.digitsOf (alphabet.write width n) =
      Nat.digitsAppend alphabet.base width n := by
    rw [digitsOf, write, reverse_reverse, map_map]
    conv_rhs => rw [← map_id (Nat.digitsAppend alphabet.base width n)]
    apply map_congr_left
    intro d present
    exact idxOf_symbol (Nat.lt_of_mem_digitsAppend alphabet.many width d present)
  rw [valueOf, digits]
  exact (Nat.setInvOn_digitsAppend_ofDigits alphabet.many width).2 small

end Written

theorem valueOf_injective {width : ℕ} {first second : Text} (one : alphabet.Spells width first)
    (two : alphabet.Spells width second) (same : alphabet.valueOf first = alphabet.valueOf second) :
    first = second := by
  rw [← write_valueOf one, same, write_valueOf two]

end Alphabet

end DracVms.Radix
