import DracVms.Central.FaixasDeRede

namespace DracVms.PerfilDeVpn

open Json (Text)
open FaixasDeRede

def tipos : List Text := ["l2tp-ipsec".toList, "wireguard".toList, "openvpn".toList]

/-! The validator of the Central. -/

/-- The fields of a profile as the panel sends them, as texts. -/
structure Entrada where
  tipo : Text
  nome : Text
  servidor : Text
  usuario : Text
  faixas : Text
  cameras : Text

structure Perfil where
  tipo : Text
  nome : Text
  servidor : Text
  usuario : Text
  faixas : List Text
  cameras : List Text

def faixasProibidas : List Text :=
  ["0.0.0.0/0".toList, "0.0.0.0/1".toList, "128.0.0.0/1".toList]

def texto (v : Text) (max : ℕ) : Text := JsString.sliceUnits max (JsString.trim v)

def nomeDoTunel (entrada : Entrada) : Text :=
  if texto entrada.nome 200 = [] then "tunel".toList else texto entrada.nome 200

def tipoDe (entrada : Entrada) : Text := JsString.toLowerCase (texto entrada.tipo 200)

def proibida (faixasCruas : Text) : Option Text :=
  faixasProibidas.find? fun p => p ∈ (faixasCruas.splitOn ',').map JsString.trim

def validarPerfilDeVpn (entrada : Entrada) (outros : List Tunel) : Except Recusa Perfil :=
  let tipo := tipoDe entrada
  if tipo = [] then .error ⟨.tipoAusente, []⟩
  else if tipo ∉ tipos then .error ⟨.tipoDesconhecido, join tipos⟩
  else
    let servidor := texto entrada.servidor 120
    if servidor = [] then .error ⟨.servidorAusente, []⟩
    else
      let faixasCruas := texto entrada.faixas 400
      match proibida faixasCruas with
      | some p => .error ⟨.faixaSequestraAInternet, p⟩
      | none =>
        match validarFaixasDoTunel (nomeDoTunel entrada) faixasCruas outros with
        | .error recusa => .error recusa
        | .ok faixas =>
          let provas := partes (texto entrada.cameras 300)
          if provas = [] then .error ⟨.provaDeVidaAusente, []⟩
          else
            .ok
              { tipo := tipo
                nome := nomeDoTunel entrada
                servidor := servidor
                usuario := texto entrada.usuario 120
                faixas := faixas
                cameras := provas }

/-! The check of the installation. -/

structure PerfilRecebido where
  tipo : Text
  faixas : List Text
  cameras : List Text
  /-- What `Number` reads, zero where it reads nothing. -/
  revisao : ℤ

inductive Acao where
  | aplicar
  | manter
  | desmontar
  | recusar
  deriving DecidableEq

inductive MotivoDaDecisao where
  | semVpn
  | jaAplicado
  | revisaoNova
  | primeiraVez
  | faixaSequestraAInternet
  | faixaInvalida
  | provaDeVidaAusente
  | tipoDesconhecido
  deriving DecidableEq

structure Decisao where
  acao : Acao
  motivo : MotivoDaDecisao
  detalhe : Option Text

def proibidas : List Text := faixasProibidas ++ ["::/0".toList]

/-- A range without blanks in it. -/
def faixaValida (f : Text) : Bool :=
  match (JsString.trim f).splitOn '/' with
  | [endereco, tamanho] =>
    match lerQuatro endereco, numero 2 tamanho with
    | some _, some prefixo => prefixo ≤ 32
    | _, _ => false
  | _ => false

def aparadas (textos : List Text) : List Text := (textos.map JsString.trim).filter (· ≠ [])

/-- The first range that is refused. -/
def recusada (faixas : List Text) : Option Decisao :=
  faixas.findSome? fun f =>
    if f ∈ proibidas then some ⟨.recusar, .faixaSequestraAInternet, some f⟩
    else if faixaValida f = false then some ⟨.recusar, .faixaInvalida, some f⟩
    else none

def revisaoDe (perfil : PerfilRecebido) : ℤ := if perfil.revisao = 0 then 1 else perfil.revisao

def decidirSobreVpn (perfil : Option PerfilRecebido) (revisaoAplicada : Option ℤ) : Decisao :=
  match perfil.filter fun p => p.tipo ≠ [] with
  | none =>
    if revisaoAplicada.any (· ≠ 0) then ⟨.desmontar, .semVpn, none⟩ else ⟨.manter, .semVpn, none⟩
  | some perfil =>
    if JsString.toLowerCase perfil.tipo ∉ tipos then
      ⟨.recusar, .tipoDesconhecido, some perfil.tipo⟩
    else if aparadas perfil.faixas = [] then
      ⟨.recusar, .faixaInvalida, some "nenhuma faixa declarada".toList⟩
    else
      match recusada (aparadas perfil.faixas) with
      | some decisao => decisao
      | none =>
        if aparadas perfil.cameras = [] then ⟨.recusar, .provaDeVidaAusente, none⟩
        else
          match revisaoAplicada with
          | none => ⟨.aplicar, .primeiraVez, none⟩
          | some aplicada =>
            if revisaoDe perfil > aplicada then ⟨.aplicar, .revisaoNova, none⟩
            else ⟨.manter, .jaAplicado, none⟩

/-! What a tunnel promises. -/

def lerEndereco (camera : Text) : Option (Fin (2 ^ 32)) := lerQuatro camera

def blocos (faixas : List Text) : List DyadicBlock :=
  faixas.filterMap fun f => (lerCidr f).map Faixa.block

/-- The ranges are such as the operator wrote, no choice of them holds half of the addresses, and a
camera that the operator declared lies in one of them. -/
structure Seguro (escritas declaradas faixas cameras : List Text) : Prop where
  valid : ∀ f ∈ faixas, (lerCidr f).isSome = true
  written : ∀ f ∈ faixas, f ∈ escritas
  narrow : ∀ algumas, algumas ⊆ faixas → (DyadicBlock.cover (blocos algumas)).card < 2 ^ 31
  reached : ∃ camera ∈ cameras, camera ∈ declaradas ∧
    ∃ address ∈ lerEndereco camera, ∃ f ∈ faixas, (address : ℕ) ∈ enderecos f

/-- The ranges of two tunnels have no address in common. -/
def Separados (perfil : Perfil) (outros : List Tunel) : Prop :=
  ∀ outro ∈ outros, outro.nome ≠ perfil.nome → ∀ minha ∈ perfil.faixas,
    ∀ dele ∈ (lerLista outro.faixas).validas, Disjoint (enderecos minha) (enderecos dele)

def SeguroNaCentral (entrada : Entrada) (outros : List Tunel) : Prop :=
  ∀ perfil, validarPerfilDeVpn entrada outros = .ok perfil →
    Seguro (partes (JsString.trim entrada.faixas)) (partes (JsString.trim entrada.cameras))
      perfil.faixas perfil.cameras ∧ Separados perfil outros

def SeguroNaInstalacao (perfil : PerfilRecebido) (revisaoAplicada : Option ℤ) : Prop :=
  (decidirSobreVpn (some perfil) revisaoAplicada).acao = .aplicar →
    Seguro (aparadas perfil.faixas) (aparadas perfil.cameras) (aparadas perfil.faixas)
      (aparadas perfil.cameras)

/-! When it keeps that. -/

/-- The part at which a text is cut, as far as the cut leaves it. -/
def cortada (v : Text) (max : ℕ) : Text :=
  JsString.trim (((texto v max).splitOn ',').getLastD [])

/-- The cut falls into no part, or leaves one that stands in the whole text. -/
def Inteira (v : Text) (max : ℕ) : Prop :=
  cortada v max = [] ∨ cortada v max ∈ partes (JsString.trim v)

instance (v : Text) (max : ℕ) : Decidable (Inteira v max) := inferInstanceAs (Decidable (_ ∨ _))

/-- The mask of the range makes its base of the camera. -/
def alcanca (f camera : Text) : Bool :=
  match lerEndereco camera, lerCidr f with
  | some address, some x => (address : ℕ) &&& x.mascara = x.base
  | _, _ => false

/-- The outermost ranges have less than half of the addresses, and reach one of these cameras. -/
def Cuidado (faixas cameras : List Text) : Prop :=
  DyadicBlock.totalSize (DyadicBlock.outermost (blocos faixas)) < 2 ^ 31 ∧
    ∃ camera ∈ cameras, ∃ f ∈ faixas, alcanca f camera = true

instance (faixas cameras : List Text) : Decidable (Cuidado faixas cameras) :=
  inferInstanceAs (Decidable (_ ∧ _))

/-- What the validator of the Central asks for. -/
def Aceitavel (entrada : Entrada) (outros : List Tunel) : Prop :=
  tipoDe entrada ∈ tipos ∧ texto entrada.servidor 120 ≠ [] ∧
    proibida (texto entrada.faixas 400) = none ∧
    (∀ p ∈ partes (texto entrada.faixas 400), (lerCidr p).isSome = true) ∧
    partes (texto entrada.faixas 400) ≠ [] ∧
    conflito (nomeDoTunel entrada) (partes (texto entrada.faixas 400)) outros = none ∧
    partes (texto entrada.cameras 300) ≠ []

instance (entrada : Entrada) (outros : List Tunel) : Decidable (Aceitavel entrada outros) :=
  inferInstanceAs (Decidable (_ ∧ _))

def CuidadoNaCentral (entrada : Entrada) (outros : List Tunel) : Prop :=
  Aceitavel entrada outros → Inteira entrada.faixas 400 ∧
    Cuidado (partes (texto entrada.faixas 400))
      ((partes (texto entrada.cameras 300)).filter (· ∈ partes (JsString.trim entrada.cameras)))

instance (entrada : Entrada) (outros : List Tunel) : Decidable (CuidadoNaCentral entrada outros) :=
  inferInstanceAs (Decidable (_ → _))

/-- What the installation asks for. -/
def Aplicavel (perfil : PerfilRecebido) (revisaoAplicada : Option ℤ) : Prop :=
  JsString.toLowerCase perfil.tipo ∈ tipos ∧ aparadas perfil.faixas ≠ [] ∧
    (∀ f ∈ aparadas perfil.faixas, f ∉ proibidas ∧ faixaValida f = true) ∧
    aparadas perfil.cameras ≠ [] ∧ ∀ aplicada ∈ revisaoAplicada, revisaoDe perfil > aplicada

instance (perfil : PerfilRecebido) (revisaoAplicada : Option ℤ) :
    Decidable (Aplicavel perfil revisaoAplicada) :=
  inferInstanceAs (Decidable (_ ∧ _))

def CuidadoNaInstalacao (perfil : PerfilRecebido) (revisaoAplicada : Option ℤ) : Prop :=
  Aplicavel perfil revisaoAplicada → Cuidado (aparadas perfil.faixas) (aparadas perfil.cameras)

instance (perfil : PerfilRecebido) (revisaoAplicada : Option ℤ) :
    Decidable (CuidadoNaInstalacao perfil revisaoAplicada) :=
  inferInstanceAs (Decidable (_ → _))

end DracVms.PerfilDeVpn
