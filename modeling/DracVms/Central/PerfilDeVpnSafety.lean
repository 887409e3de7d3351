import DracVms.Central.PerfilDeVpn

namespace DracVms.PerfilDeVpn

open List

open Json (Text)
open FaixasDeRede

/-! Parts of a text that is cut. -/

/-- What two texts begin with, but for the last part, which may go on in each its own way. -/
theorem splitOn_front {c : Char} (front rest : Text) {ends : Text} (plain : c ∉ ends) :
    ((front ++ ends).splitOn c).dropLast <+: (front ++ rest).splitOn c := by
  induction front with
  | nil =>
    rw [nil_append, splitOn_eq_singleton plain]
    exact nil_prefix
  | cons x front ih =>
    rw [cons_append, cons_append, splitOn_cons_eq_if_modifyHead, splitOn_cons_eq_if_modifyHead]
    split
    · rw [dropLast_cons_of_ne_nil (splitOn_ne_nil c _)]
      exact (prefix_cons_inj []).mpr ih
    · cases parts : (front ++ ends).splitOn c with
      | nil => exact absurd parts (splitOn_ne_nil c _)
      | cons a others =>
        rw [parts] at ih
        cases others with
        | nil => exact nil_prefix
        | cons b others =>
          cases whole : (front ++ rest).splitOn c with
          | nil => exact absurd whole (splitOn_ne_nil c _)
          | cons a' others' =>
            rw [whole, dropLast_cons_of_ne_nil (cons_ne_nil b others)] at ih
            obtain ⟨same, later⟩ := cons_prefix_cons.mp ih
            rw [modifyHead_cons, modifyHead_cons,
              dropLast_cons_of_ne_nil (cons_ne_nil b others), same]
            exact (prefix_cons_inj (x :: a')).mpr later

theorem texto_front (v : Text) (max : ℕ) :
    ((texto v max).splitOn ',').dropLast <+: (JsString.trim v).splitOn ',' := by
  obtain ⟨front, rest, whole, cut⟩ := JsString.sliceUnits_front max (JsString.trim v)
  unfold texto
  rw [whole] at cut ⊢
  rcases cut with cut | cut
  · rw [cut]
    have shared : ((front ++ []).splitOn ',').dropLast <+: (front ++ rest).splitOn ',' :=
      splitOn_front front rest (by simp)
    rwa [append_nil] at shared
  · rw [cut]
    exact splitOn_front front rest (by decide)

theorem mem_partes {t p : Text} :
    p ∈ partes t ↔ (∃ q ∈ t.splitOn ',', JsString.trim q = p) ∧ p ≠ [] := by
  unfold partes
  rw [mem_filter, mem_map, decide_eq_true_eq]

theorem mem_partes_texto {v p : Text} {max : ℕ} (listed : p ∈ partes (texto v max)) :
    p ∈ partes (JsString.trim v) ∨ p = cortada v max := by
  obtain ⟨⟨q, part, same⟩, filled⟩ := mem_partes.mp listed
  have parts : (texto v max).splitOn ',' =
      ((texto v max).splitOn ',').dropLast ++
        [((texto v max).splitOn ',').getLast (splitOn_ne_nil _ _)] :=
    (dropLast_append_getLast _).symm
  rw [parts] at part
  rcases mem_append.mp part with early | last
  · left
    exact mem_partes.mpr ⟨⟨q, (texto_front v max).subset early, same⟩, filled⟩
  · right
    rw [← same, mem_singleton.mp last]
    unfold cortada
    rw [List.getLastD_eq_getLast?, List.getLast?_eq_some_getLast (splitOn_ne_nil _ _)]
    rfl

theorem cortada_mem {v : Text} {max : ℕ} (filled : cortada v max ≠ []) :
    cortada v max ∈ partes (texto v max) := by
  apply mem_partes.mpr
  refine ⟨⟨((texto v max).splitOn ',').getLastD [], ?_, rfl⟩, filled⟩
  rw [List.getLastD_eq_getLast?, List.getLast?_eq_some_getLast (splitOn_ne_nil _ _)]
  exact getLast_mem (splitOn_ne_nil _ _)

theorem written_iff (v : Text) (max : ℕ) :
    (∀ f ∈ partes (texto v max), f ∈ partes (JsString.trim v)) ↔ Inteira v max := by
  constructor
  · intro written
    by_cases empty : cortada v max = []
    · exact Or.inl empty
    · exact Or.inr (written _ (cortada_mem empty))
  · intro whole f listed
    rcases mem_partes_texto listed with known | same
    · exact known
    · rcases whole with empty | known
      · rw [same] at listed
        exact absurd empty (mem_partes.mp listed).2
      · rw [same]
        exact known

/-! Addresses that ranges have together. -/

theorem blocos_subset {algumas faixas : List Text} (within : algumas ⊆ faixas) :
    blocos algumas ⊆ blocos faixas := by
  intro b listed
  obtain ⟨f, here, same⟩ := mem_filterMap.mp listed
  exact mem_filterMap.mpr ⟨f, within here, same⟩

theorem narrow_iff (faixas : List Text) :
    (∀ algumas, algumas ⊆ faixas → (DyadicBlock.cover (blocos algumas)).card < 2 ^ 31) ↔
      DyadicBlock.totalSize (DyadicBlock.outermost (blocos faixas)) < 2 ^ 31 := by
  rw [← DyadicBlock.card_cover]
  constructor
  · intro narrow
    exact narrow faixas (List.Subset.refl faixas)
  · intro narrow algumas within
    have fewer := Finset.card_le_card (DyadicBlock.cover_mono (blocos_subset within))
    omega

theorem alcanca_iff (f camera : Text) :
    alcanca f camera = true ↔ ∃ address ∈ lerEndereco camera, (address : ℕ) ∈ enderecos f := by
  unfold alcanca enderecos
  cases lerEndereco camera with
  | none => simp
  | some address =>
    cases lerCidr f with
    | none => simp
    | some x =>
      rw [decide_eq_true_eq, ← x.mem_block address]
      simp

theorem seguro_iff (escritas declaradas faixas cameras : List Text)
    (valid : ∀ f ∈ faixas, (lerCidr f).isSome = true) : Seguro escritas declaradas faixas cameras ↔
      (∀ f ∈ faixas, f ∈ escritas) ∧ Cuidado faixas (cameras.filter (· ∈ declaradas)) := by
  have reached_iff : (∃ camera ∈ cameras, camera ∈ declaradas ∧
      ∃ address ∈ lerEndereco camera, ∃ f ∈ faixas, (address : ℕ) ∈ enderecos f) ↔
        ∃ camera ∈ cameras.filter (· ∈ declaradas), ∃ f ∈ faixas, alcanca f camera = true := by
    constructor
    · rintro ⟨camera, listed, declared, address, read, f, here, inside⟩
      refine ⟨camera, mem_filter.mpr ⟨listed, decide_eq_true declared⟩, f, here, ?_⟩
      exact (alcanca_iff f camera).mpr ⟨address, read, inside⟩
    · rintro ⟨camera, chosen, f, here, reaches⟩
      obtain ⟨listed, declared⟩ := mem_filter.mp chosen
      obtain ⟨address, read, inside⟩ := (alcanca_iff f camera).mp reaches
      exact ⟨camera, listed, of_decide_eq_true declared, address, read, f, here, inside⟩
  constructor
  · intro safe
    exact ⟨safe.written, (narrow_iff faixas).mp safe.narrow, reached_iff.mp safe.reached⟩
  · rintro ⟨written, narrow, reached⟩
    exact ⟨valid, written, (narrow_iff faixas).mpr narrow, reached_iff.mpr reached⟩

/-! What the Central accepts. -/

theorem tipos_filled : [] ∉ tipos := by decide

theorem validarPerfilDeVpn_ok (entrada : Entrada) (outros : List Tunel) (perfil : Perfil) :
    validarPerfilDeVpn entrada outros = .ok perfil ↔
      Aceitavel entrada outros ∧ perfil =
        { tipo := tipoDe entrada
          nome := nomeDoTunel entrada
          servidor := texto entrada.servidor 120
          usuario := texto entrada.usuario 120
          faixas := partes (texto entrada.faixas 400)
          cameras := partes (texto entrada.cameras 300) } := by
  unfold validarPerfilDeVpn
  dsimp only
  constructor
  · intro accepted
    split at accepted
    · cases accepted
    split at accepted
    · cases accepted
    rename_i known
    rw [not_not] at known
    split at accepted
    · cases accepted
    rename_i servidor
    split at accepted
    · cases accepted
    rename_i allowed
    split at accepted
    · cases accepted
    rename_i faixas fine
    obtain ⟨each, some_, free, same⟩ := (validarFaixasDoTunel_ok _ _ _ _).mp fine
    split at accepted
    · cases accepted
    rename_i cameras
    cases accepted
    rw [same]
    exact ⟨⟨known, servidor, allowed, each, some_, free, cameras⟩, rfl⟩
  · rintro ⟨⟨known, servidor, allowed, each, some_, free, cameras⟩, rfl⟩
    have filled : tipoDe entrada ≠ [] := by
      intro empty
      rw [empty] at known
      exact tipos_filled known
    have fine := (validarFaixasDoTunel_ok (nomeDoTunel entrada) (texto entrada.faixas 400) outros
      (partes (texto entrada.faixas 400))).mpr ⟨each, some_, free, rfl⟩
    rw [if_neg filled, if_neg (not_not.mpr known), if_neg servidor, allowed]
    rw [fine]
    dsimp only
    rw [if_neg cameras]

theorem central_iff (entrada : Entrada) (outros : List Tunel) :
    SeguroNaCentral entrada outros ↔ CuidadoNaCentral entrada outros := by
  constructor
  · intro safe acceptable
    obtain ⟨seguro, -⟩ := safe _ ((validarPerfilDeVpn_ok entrada outros _).mpr ⟨acceptable, rfl⟩)
    have valid := acceptable.2.2.2.1
    obtain ⟨written, careful⟩ := (seguro_iff _ _ _ _ valid).mp seguro
    exact ⟨(written_iff entrada.faixas 400).mp written, careful⟩
  · intro careful perfil accepted
    obtain ⟨acceptable, same⟩ := (validarPerfilDeVpn_ok entrada outros perfil).mp accepted
    obtain ⟨whole, rest⟩ := careful acceptable
    have valid := acceptable.2.2.2.1
    have free := acceptable.2.2.2.2.2.1
    rw [same]
    constructor
    · exact (seguro_iff _ _ _ _ valid).mpr ⟨(written_iff entrada.faixas 400).mpr whole, rest⟩
    · intro outro listed other minha mine dele theirs
      exact conflito_none free outro listed other minha mine dele theirs

/-! What the installation applies. -/

theorem isDigit_solid {c : Char} (digit : isDigit c = true) : JsString.isBlank c = false := by
  unfold isDigit at digit
  rw [Bool.and_eq_true, decide_eq_true_eq, decide_eq_true_eq] at digit
  have low : 48 ≤ c.toNat := digit.1
  have high : c.toNat ≤ 57 := digit.2
  rw [← Char.ofNat_toNat c]
  generalize c.toNat = n at low high
  interval_cases n <;> rfl

theorem numero_solid {digits : ℕ} {t : Text} {n : ℕ} (read : numero digits t = some n) :
    ∀ c ∈ t, JsString.isBlank c = false := by
  unfold numero at read
  split at read
  · rename_i spelled
    intro c listed
    exact isDigit_solid (all_eq_true.mp spelled.2.2 c listed)
  · cases read

theorem lerQuatro_solid {t : Text} {n : Fin (2 ^ 32)} (read : lerQuatro t = some n) :
    ∀ c ∈ t, JsString.isBlank c = false := by
  unfold lerQuatro at read
  intro c listed
  cases parts : (t.splitOn '.').mapM (numero 3) with
  | none =>
    rw [parts] at read
    cases read
  | some numbers =>
    rcases JsString.mem_splitOn '.' listed with dot | ⟨part, known, inside⟩
    · rw [dot]
      decide
    · obtain ⟨m, spelled⟩ := JsString.mapM_spelled parts part known
      exact numero_solid spelled c inside

/-- What the installation takes for a range is one. -/
theorem faixaValida_lerCidr {f : Text} (valid : faixaValida f = true) :
    (lerCidr (JsString.trim f)).isSome = true := by
  unfold faixaValida at valid
  unfold lerCidr
  generalize (JsString.trim f).splitOn '/' = partes at valid ⊢
  rcases partes with _ | ⟨endereco, _ | ⟨tamanho, _ | ⟨outra, mais⟩⟩⟩
  · cases valid
  · cases valid
  · dsimp only at valid ⊢
    split at valid
    · rename_i address prefixo read size
      rw [JsString.trim_of_solid (lerQuatro_solid read), JsString.trim_of_solid (numero_solid size),
        read, size]
      dsimp only
      rw [dif_pos (of_decide_eq_true valid)]
      rfl
    · cases valid
  · cases valid

theorem trim_of_aparada {textos : List Text} {f : Text} (listed : f ∈ aparadas textos) :
    JsString.trim f = f := by
  obtain ⟨original, -, same⟩ := mem_map.mp (mem_of_mem_filter listed)
  rw [← same, JsString.trim_trim]

theorem recusada_none (faixas : List Text) :
    recusada faixas = none ↔ ∀ f ∈ faixas, f ∉ proibidas ∧ faixaValida f = true := by
  unfold recusada
  rw [List.findSome?_eq_none_iff]
  constructor
  · intro none_ f listed
    have passes := none_ f listed
    split at passes
    · cases passes
    rename_i allowed
    split at passes
    · cases passes
    rename_i valid
    exact ⟨allowed, Bool.not_eq_false _ ▸ valid⟩
  · intro passes f listed
    rw [if_neg (passes f listed).1, (passes f listed).2]
    rfl

theorem recusada_refuses {faixas : List Text} {decisao : Decisao}
    (refused : recusada faixas = some decisao) : decisao.acao = .recusar := by
  obtain ⟨f, -, made⟩ := List.exists_of_findSome?_eq_some refused
  split at made
  · cases made
    rfl
  split at made
  · cases made
    rfl
  · cases made

theorem decidirSobreVpn_aplicar (perfil : PerfilRecebido) (revisaoAplicada : Option ℤ) :
    (decidirSobreVpn (some perfil) revisaoAplicada).acao = .aplicar ↔
      Aplicavel perfil revisaoAplicada := by
  unfold decidirSobreVpn
  have filled : JsString.toLowerCase perfil.tipo ∈ tipos → perfil.tipo ≠ [] := by
    intro known empty
    rw [empty] at known
    exact tipos_filled known
  constructor
  · intro applies
    split at applies
    · split at applies
      all_goals cases applies
    rename_i found
    obtain ⟨same, -⟩ := Option.filter_eq_some_iff.mp found
    cases same
    split at applies
    · cases applies
    rename_i known
    rw [not_not] at known
    split at applies
    · cases applies
    rename_i some_
    split at applies
    · rename_i decisao refused
      rw [recusada_refuses refused] at applies
      cases applies
    rename_i passes
    split at applies
    · cases applies
    rename_i cameras
    refine ⟨known, some_, (recusada_none _).mp passes, cameras, ?_⟩
    split at applies
    · intro aplicada none_
      cases none_
    · rename_i aplicada
      split at applies
      · rename_i newer
        intro other same
        cases same
        exact newer
      · cases applies
  · rintro ⟨known, some_, passes, cameras, newer⟩
    have found : (some perfil).filter (fun p => p.tipo ≠ []) = some perfil := by
      rw [Option.filter_some, if_pos (decide_eq_true (filled known))]
    rw [found]
    dsimp only
    rw [if_neg (not_not.mpr known), if_neg some_, (recusada_none _).mpr passes]
    rw [if_neg cameras]
    cases revisaoAplicada with
    | none => rfl
    | some aplicada =>
      dsimp only
      rw [if_pos (newer aplicada rfl)]

theorem installation_iff (perfil : PerfilRecebido) (revisaoAplicada : Option ℤ) :
    SeguroNaInstalacao perfil revisaoAplicada ↔ CuidadoNaInstalacao perfil revisaoAplicada := by
  unfold SeguroNaInstalacao CuidadoNaInstalacao
  rw [decidirSobreVpn_aplicar]
  have each : Aplicavel perfil revisaoAplicada →
      (Seguro (aparadas perfil.faixas) (aparadas perfil.cameras) (aparadas perfil.faixas)
        (aparadas perfil.cameras) ↔
          Cuidado (aparadas perfil.faixas) (aparadas perfil.cameras)) := by
    intro applies
    have valid : ∀ f ∈ aparadas perfil.faixas, (lerCidr f).isSome = true := by
      intro f listed
      have readable := faixaValida_lerCidr (applies.2.2.1 f listed).2
      rw [trim_of_aparada listed] at readable
      exact readable
    have all : (aparadas perfil.cameras).filter (· ∈ aparadas perfil.cameras) =
        aparadas perfil.cameras := by
      apply filter_eq_self.mpr
      intro camera listed
      exact decide_eq_true listed
    rw [seguro_iff _ _ _ _ valid, all]
    constructor
    · intro both
      exact both.2
    · intro careful
      exact ⟨fun f listed => listed, careful⟩
  constructor
  · intro safe applies
    exact (each applies).mp (safe applies)
  · intro careful applies
    exact (each applies).mpr (careful applies)

/-- A profile that is accepted or applied is safe exactly when the cut falls into none of its
ranges, its outermost ranges are small together and one of its cameras lies in a range; whether two
ranges meet is told exactly. -/
theorem tunnel_iff (entrada : Entrada) (outros : List Tunel) (perfil : PerfilRecebido)
    (revisaoAplicada : Option ℤ) (a b : Text) :
    (SeguroNaCentral entrada outros ↔ CuidadoNaCentral entrada outros) ∧
      (SeguroNaInstalacao perfil revisaoAplicada ↔ CuidadoNaInstalacao perfil revisaoAplicada) ∧
      (seSobrepoe a b = true ↔ ∃ address, address ∈ enderecos a ∧ address ∈ enderecos b) :=
  ⟨central_iff entrada outros, installation_iff perfil revisaoAplicada, seSobrepoe_iff_meet a b⟩

def entradaDe (faixas : Text) (camera : String) : Entrada where
  tipo := "wireguard".toList
  nome := []
  servidor := "vpn.loja".toList
  usuario := []
  faixas := faixas
  cameras := camera.toList

def recebido (faixas cameras : List String) : PerfilRecebido :=
  ⟨"wireguard".toList, faixas.map String.toList, cameras.map String.toList, 1⟩

/-- Another spelling of the whole space, two quarters that are a half, a range that the cut after
four hundred characters widens, and a camera outside are all accepted. -/
theorem unsafe_tunnels : ¬SeguroNaCentral (entradaDe "0.0.0.0/00".toList "192.168.1.50") [] ∧
      ¬SeguroNaCentral (entradaDe "0.0.0.0/2, 64.0.0.0/2".toList "64.0.0.1") [] ∧
      ¬SeguroNaCentral (entradaDe ("10.0.0.0/24,".toList ++ List.replicate 378 ' ' ++
        "10.0.0.0/24".toList) "10.0.0.9") [] ∧
      ¬SeguroNaCentral (entradaDe "192.168.1.0/24".toList "8.8.8.8") [] ∧
      ¬SeguroNaInstalacao (recebido ["0.0.0.0/00"] ["192.168.1.50"]) none ∧
      ¬SeguroNaInstalacao (recebido ["192.168.1.0/24"] ["192.168.1"]) none := by
  simp only [central_iff, installation_iff]
  decide +kernel

end DracVms.PerfilDeVpn
