import DracVms.Library.DyadicBlocks
import DracVms.Library.JsString

namespace DracVms.FaixasDeRede

open Json (Text)

/-! Addresses. -/

def isDigit (c : Char) : Bool := '0' ≤ c && c ≤ '9'

/-- A number of at least one digit and at most as many. -/
def numero (digits : ℕ) (text : Text) : Option ℕ :=
  if text ≠ [] ∧ text.length ≤ digits ∧ text.all isDigit = true then
    some (text.foldl (fun n c => 10 * n + (c.toNat - '0'.toNat)) 0)
  else none

def inteiro (a b c d : ℕ) : ℕ := (a <<< 24) + (b <<< 16) + (c <<< 8) + d

theorem inteiro_lt {a b c d : ℕ} (small : a ≤ 255 ∧ b ≤ 255 ∧ c ≤ 255 ∧ d ≤ 255) :
    inteiro a b c d < 2 ^ 32 := by
  unfold inteiro
  simp only [Nat.shiftLeft_eq]
  omega

/-- Four numbers with points between them. -/
def lerQuatro (text : Text) : Option (Fin (2 ^ 32)) :=
  match (text.splitOn '.').mapM (numero 3) with
  | some [a, b, c, d] =>
    if small : a ≤ 255 ∧ b ≤ 255 ∧ c ≤ 255 ∧ d ≤ 255 then
      some ⟨inteiro a b c d, inteiro_lt small⟩
    else none
  | _ => none

def mascaraDe (prefixo : ℕ) : ℕ :=
  if prefixo = 0 then 0 else (0xFFFFFFFF <<< (32 - prefixo)) % 2 ^ 32

theorem testBit_mascaraDe (prefixo i : ℕ) :
    (mascaraDe prefixo).testBit i = (decide (i < 32) && decide (32 - prefixo ≤ i)) := by
  unfold mascaraDe
  split
  · rename_i none_
    rw [Nat.zero_testBit, none_]
    by_cases below : i < 32
    all_goals simp [below]
  · have ones : (0xFFFFFFFF : ℕ) = 2 ^ 32 - 1 := rfl
    rw [Nat.testBit_mod_two_pow, Nat.testBit_shiftLeft, ones, Nat.testBit_two_pow_sub_one]
    by_cases below : i < 32
    · by_cases above : 32 - prefixo ≤ i
      · have near : i - (32 - prefixo) < 32 := by omega
        simp [below, above, near]
      · simp [above]
    · simp [below]

/-- The mask leaves the multiple of the size of the range. -/
theorem and_mascaraDe {n : ℕ} (bounded : n < 2 ^ 32) (prefixo : ℕ) :
    n &&& mascaraDe prefixo = n / 2 ^ (32 - prefixo) * 2 ^ (32 - prefixo) := by
  apply Nat.eq_of_testBit_eq
  intro i
  rw [Nat.testBit_and, testBit_mascaraDe, ← Nat.shiftRight_eq_div_pow, ← Nat.shiftLeft_eq,
    Nat.testBit_shiftLeft, Nat.testBit_shiftRight]
  by_cases above : 32 - prefixo ≤ i
  · have back : 32 - prefixo + (i - (32 - prefixo)) = i := by omega
    rw [back]
    by_cases below : i < 32
    · simp [above, below]
    · have high : n.testBit i = false := by
        apply Nat.testBit_lt_two_pow
        apply Nat.lt_of_lt_of_le bounded
        apply Nat.pow_le_pow_right (by omega)
        omega
      simp [high]
  · simp [above]

/-- A range, whose base has no bits under its mask. -/
structure Faixa where
  base : ℕ
  prefixo : ℕ
  bounded : base < 2 ^ 32
  small : prefixo ≤ 32
  aligned : base &&& mascaraDe prefixo = base

def Faixa.mascara (x : Faixa) : ℕ := mascaraDe x.prefixo

def Faixa.de (endereco : Fin (2 ^ 32)) (prefixo : ℕ) (small : prefixo ≤ 32) : Faixa where
  base := endereco &&& mascaraDe prefixo
  prefixo := prefixo
  bounded := Nat.lt_of_le_of_lt Nat.and_le_left endereco.isLt
  small := small
  aligned := by rw [Nat.and_assoc, Nat.and_self]

def lerCidr (texto : Text) : Option Faixa :=
  match texto.splitOn '/' with
  | [endereco, tamanho] =>
    match lerQuatro (JsString.trim endereco), numero 2 (JsString.trim tamanho) with
    | some inteiro, some prefixo =>
      if small : prefixo ≤ 32 then some (Faixa.de inteiro prefixo small) else none
    | _, _ => none
  | _ => none

def seSobrepoe (a b : Text) : Bool :=
  match lerCidr a, lerCidr b with
  | some x, some y =>
    let mascara := mascaraDe (min x.prefixo y.prefixo)
    x.base &&& mascara = y.base &&& mascara
  | _, _ => false

/-! Lists of ranges. -/

def partes (texto : Text) : List Text :=
  ((texto.splitOn ',').map JsString.trim).filter (· ≠ [])

structure Lista where
  validas : List Text
  invalidas : List Text

def lerLista (texto : Text) : Lista where
  validas := (partes texto).filter fun p => (lerCidr p).isSome
  invalidas := (partes texto).filter fun p => (lerCidr p).isNone

structure Tunel where
  nome : Text
  faixas : Text

inductive Motivo where
  | tipoAusente
  | tipoDesconhecido
  | servidorAusente
  | faixaSequestraAInternet
  | faixaInvalida
  | faixaAusente
  | faixaEmConflito
  | provaDeVidaAusente
  deriving DecidableEq

structure Recusa where
  motivo : Motivo
  detalhe : Text

def join (texts : List Text) : Text := List.intercalate ", ".toList texts

/-- The first conflict with a tunnel of another name. -/
def conflito (nome : Text) (validas : List Text) (outros : List Tunel) : Option Text :=
  outros.findSome? fun outro =>
    if outro.nome = nome then none
    else
      validas.findSome? fun minha =>
        (lerLista outro.faixas).validas.findSome? fun dele =>
          if seSobrepoe minha dele then
            some (minha ++ " conflita com ".toList ++ dele ++ ", já usada pelo túnel \"".toList ++
              outro.nome ++ "\"".toList)
          else none

def validarFaixasDoTunel (nome faixas : Text) (outros : List Tunel) :
    Except Recusa (List Text) :=
  let lista := lerLista faixas
  if lista.invalidas ≠ [] then .error ⟨.faixaInvalida, join lista.invalidas⟩
  else if lista.validas = [] then .error ⟨.faixaAusente, []⟩
  else
    match conflito nome lista.validas outros with
    | some detalhe => .error ⟨.faixaEmConflito, detalhe⟩
    | none => .ok lista.validas

/-! The addresses of a range. -/

def Faixa.block (x : Faixa) : DyadicBlock := ⟨x.base / 2 ^ (32 - x.prefixo), 32 - x.prefixo⟩

/-- The addresses of a text: those of the range that it is, or none. -/
def enderecos (texto : Text) : Finset ℕ :=
  match lerCidr texto with
  | some x => x.block.members
  | none => ∅

theorem Faixa.base_eq (x : Faixa) :
    x.base = x.base / 2 ^ (32 - x.prefixo) * 2 ^ (32 - x.prefixo) := by
  rw [← and_mascaraDe x.bounded]
  exact x.aligned.symm

theorem Faixa.mem_block (x : Faixa) (address : Fin (2 ^ 32)) :
    (address : ℕ) ∈ x.block.members ↔ (address : ℕ) &&& x.mascara = x.base := by
  have positive : 0 < 2 ^ (32 - x.prefixo) := Nat.two_pow_pos _
  rw [DyadicBlock.mem_members, Faixa.mascara, and_mascaraDe address.isLt]
  show (address : ℕ) / 2 ^ (32 - x.prefixo) = x.base / 2 ^ (32 - x.prefixo) ↔ _
  constructor
  · intro same
    rw [same]
    exact x.base_eq.symm
  · intro same
    rw [x.base_eq] at same
    exact Nat.eq_of_mul_eq_mul_right positive same

theorem masked_eq_iff (x y : Faixa) : x.base &&& mascaraDe (min x.prefixo y.prefixo) =
        y.base &&& mascaraDe (min x.prefixo y.prefixo) ↔
      ∃ a, a ∈ x.block.members ∧ a ∈ y.block.members := by
  have smallX := x.small
  have smallY := y.small
  have larger : max x.block.exponent y.block.exponent = 32 - min x.prefixo y.prefixo := by
    show max (32 - x.prefixo) (32 - y.prefixo) = _
    omega
  have positive : 0 < 2 ^ (32 - min x.prefixo y.prefixo) := Nat.two_pow_pos _
  have quotient : ∀ z : Faixa, z.block.exponent ≤ 32 - min x.prefixo y.prefixo →
      z.block.index / 2 ^ (32 - min x.prefixo y.prefixo - z.block.exponent) =
        z.base / 2 ^ (32 - min x.prefixo y.prefixo) := by
    intro z below
    show z.base / 2 ^ z.block.exponent / _ = _
    rw [Nat.div_div_eq_div_mul, ← Nat.pow_add, Nat.add_sub_cancel' below]
  have belowX : x.block.exponent ≤ 32 - min x.prefixo y.prefixo := by
    rw [← larger]
    exact Nat.le_max_left _ _
  have belowY : y.block.exponent ≤ 32 - min x.prefixo y.prefixo := by
    rw [← larger]
    exact Nat.le_max_right _ _
  rw [DyadicBlock.meet_iff, larger, quotient x belowX, quotient y belowY,
    and_mascaraDe x.bounded, and_mascaraDe y.bounded]
  constructor
  · intro same
    exact Nat.eq_of_mul_eq_mul_right positive same
  · intro same
    rw [same]

/-- `seSobrepoe` says exactly whether two ranges have an address in common. -/
theorem seSobrepoe_iff_meet (a b : Text) :
    seSobrepoe a b = true ↔ ∃ address, address ∈ enderecos a ∧ address ∈ enderecos b := by
  unfold seSobrepoe enderecos
  cases lerCidr a with
  | none => simp
  | some x =>
    cases lerCidr b with
    | none => simp
    | some y =>
      dsimp only
      rw [decide_eq_true_eq]
      exact masked_eq_iff x y

/-! What a list of ranges is accepted for. -/

theorem conflito_none {nome : Text} {validas : List Text} {outros : List Tunel}
    (free : conflito nome validas outros = none) :
    ∀ outro ∈ outros, outro.nome ≠ nome → ∀ minha ∈ validas,
      ∀ dele ∈ (lerLista outro.faixas).validas, Disjoint (enderecos minha) (enderecos dele) := by
  intro outro listed other minha mine dele theirs
  have nothing := List.findSome?_eq_none_iff.mp free outro listed
  rw [if_neg other] at nothing
  have nothing' := List.findSome?_eq_none_iff.mp nothing minha mine
  have nothing'' := List.findSome?_eq_none_iff.mp nothing' dele theirs
  have apart : ¬seSobrepoe minha dele = true := by
    intro meets
    rw [if_pos meets] at nothing''
    cases nothing''
  apply Finset.disjoint_left.mpr
  intro address inMine inTheirs
  exact apart ((seSobrepoe_iff_meet minha dele).mpr ⟨address, inMine, inTheirs⟩)

theorem validas_of_invalidas_nil {texto : Text} (fine : (lerLista texto).invalidas = []) :
    (lerLista texto).validas = partes texto ∧ ∀ p ∈ partes texto, (lerCidr p).isSome = true := by
  have each : ∀ p ∈ partes texto, (lerCidr p).isSome = true := by
    intro p listed
    have kept := List.filter_eq_nil_iff.mp fine p listed
    rw [Option.isNone_iff_eq_none] at kept
    exact Option.isSome_iff_ne_none.mpr kept
  exact ⟨List.filter_eq_self.mpr each, each⟩

theorem invalidas_nil {texto : Text} (each : ∀ p ∈ partes texto, (lerCidr p).isSome = true) :
    (lerLista texto).invalidas = [] := by
  apply List.filter_eq_nil_iff.mpr
  intro p listed unreadable
  rw [Option.isNone_iff_eq_none] at unreadable
  have readable := each p listed
  rw [unreadable] at readable
  cases readable

theorem validarFaixasDoTunel_ok (nome faixas : Text) (outros : List Tunel) (aceitas : List Text) :
    validarFaixasDoTunel nome faixas outros = .ok aceitas ↔
      (∀ p ∈ partes faixas, (lerCidr p).isSome = true) ∧ partes faixas ≠ [] ∧
        conflito nome (partes faixas) outros = none ∧ aceitas = partes faixas := by
  unfold validarFaixasDoTunel
  dsimp only
  constructor
  · intro accepted
    split at accepted
    · cases accepted
    · rename_i fine
      rw [not_not] at fine
      obtain ⟨same, each⟩ := validas_of_invalidas_nil fine
      rw [same] at accepted
      split at accepted
      · cases accepted
      · rename_i some_
        split at accepted
        · cases accepted
        · rename_i free
          cases accepted
          exact ⟨each, some_, free, rfl⟩
  · rintro ⟨each, some_, free, rfl⟩
    have fine := invalidas_nil each
    obtain ⟨same, -⟩ := validas_of_invalidas_nil fine
    rw [if_neg (fun other => other fine), same, if_neg some_, free]

end DracVms.FaixasDeRede
