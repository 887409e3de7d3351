import DracVms.Trackers.AjustCamTracker
import DracVms.Library.Runs

namespace DracVms.AjustCamTracker

open List

/-- No left side and no right side occurs twice. -/
structure OneToOne (pairs : List (ℕ × ℕ)) : Prop where
  left : (pairs.map Prod.fst).Nodup
  right : (pairs.map Prod.snd).Nodup

theorem OneToOne.nil : OneToOne [] := ⟨nodup_nil, nodup_nil⟩

variable {pairs : List (ℕ × ℕ)}

theorem OneToOne.filter (own : OneToOne pairs) (keep : ℕ × ℕ → Bool) :
    OneToOne (pairs.filter keep) :=
  ⟨own.left.sublist (filter_sublist.map _), own.right.sublist (filter_sublist.map _)⟩

theorem OneToOne.append {first second : List (ℕ × ℕ)} (one : OneToOne first)
    (two : OneToOne second)
    (apart : ∀ p ∈ second, p.1 ∉ first.map Prod.fst ∧ p.2 ∉ first.map Prod.snd) :
    OneToOne (first ++ second) := by
  constructor
  · rw [map_append, nodup_append']
    refine ⟨one.left, two.left, disjoint_right.mpr fun a inside => ?_⟩
    obtain ⟨p, own, rfl⟩ := mem_map.mp inside
    exact (apart p own).1
  · rw [map_append, nodup_append']
    refine ⟨one.right, two.right, disjoint_right.mpr fun a inside => ?_⟩
    obtain ⟨p, own, rfl⟩ := mem_map.mp inside
    exact (apart p own).2

theorem OneToOne.snoc (own : OneToOne pairs) {p : ℕ × ℕ} (left : p.1 ∉ pairs.map Prod.fst)
    (right : p.2 ∉ pairs.map Prod.snd) : OneToOne (pairs ++ [p]) := by
  refine own.append ⟨nodup_singleton _, nodup_singleton _⟩ fun q inside => ?_
  obtain rfl := mem_singleton.mp inside
  exact ⟨left, right⟩

/-! One association. -/

theorem greedy_oneToOne (costs : List (List ℚ)) : OneToOne (greedy costs) := by
  have kept : ∀ (candidates : List (ℚ × ℕ × ℕ)) (pairs : List (ℕ × ℕ)), OneToOne pairs →
      OneToOne (candidates.foldl takeFree pairs) := by
    intro candidates
    induction candidates with
    | nil => exact fun pairs own => own
    | cons candidate candidates ih =>
      intro pairs own
      refine ih _ ?_
      unfold takeFree
      split
      · exact own
      · rename_i free
        exact own.snoc (fun taken => free (.inl taken)) (fun taken => free (.inr taken))
  exact kept _ [] .nil

section Association

variable {K S F : Type} {v : Visao K S F} {cfg : Ajustes}
  {hungarian : Option (List (List ℚ) → List (ℕ × ℕ))} {fuel : ℕ}

theorem assigned_oneToOne
    (solves : ∀ solve, hungarian = some solve → ∀ costs, OneToOne (solve costs))
    (costs : List (List ℚ)) : OneToOne (assigned hungarian costs) := by
  unfold assigned
  split
  · rename_i solve
    exact (solves solve rfl costs).filter _
  · exact greedy_oneToOne costs

theorem Mesmos.oneToOne {c : Correcao} (mesmos : Mesmos pairs c) (own : OneToOne pairs) :
    OneToOne c.pairs :=
  ⟨mesmos.rows ▸ own.left, mesmos.cols.nodup_iff.mpr own.right⟩

variable (v cfg) in
theorem settled_ends
    (solves : ∀ solve, hungarian = some solve → ∀ costs, OneToOne (solve costs)) (gate : ℚ)
    (recovering : Bool) (rows : List (Linha K S)) (cols : List (Coluna S)) :
    ∃ (c : Correcao) (n : ℕ), OneToOne c.pairs ∧ ∀ fuel, n < fuel →
      settled v cfg hungarian fuel gate recovering rows cols = some c := by
  have own := assigned_oneToOne solves (rows.map fun l => cols.map (cost v cfg gate recovering l))
  by_cases swaps : (!recovering && decide (2 ≤ (assigned hungarian
      (rows.map fun l => cols.map (cost v cfg gate recovering l))).length)) = true
  · obtain ⟨c, n, mesmos, ends⟩ :=
      corrigirTrocas_ends (alike v rows cols) (within v gate rows cols)
        (assigned hungarian (rows.map fun l => cols.map (cost v cfg gate recovering l)))
    refine ⟨c, n, mesmos.oneToOne own, fun fuel enough => ?_⟩
    exact (if_pos swaps).trans (ends fuel enough)
  · exact ⟨_, 0, own, fun fuel _ => if_neg swaps⟩

/-- The place and the detection of a pair. -/
def named (rows : List (Linha K S)) (cols : List (Coluna S)) (p : ℕ × ℕ) : Option (ℕ × ℕ) :=
  (rows[p.1]?).bind fun l => (cols[p.2]?).map fun c => (l.place, c.index)

theorem named_some {rows : List (Linha K S)} {cols : List (Coluna S)} {p q : ℕ × ℕ}
    (same : named rows cols p = some q) :
    (rows.map Linha.place)[p.1]? = some q.1 ∧ (cols.map Coluna.index)[p.2]? = some q.2 := by
  obtain ⟨l, row, same⟩ := Option.bind_eq_some_iff.mp same
  obtain ⟨c, col, rfl⟩ := Option.map_eq_some_iff.mp same
  rw [List.getElem?_map, List.getElem?_map, row, col]
  exact ⟨rfl, rfl⟩

theorem same_place {places : List ℕ} (distinct : places.Nodup) {i j a : ℕ}
    (here : places[i]? = some a) (there : places[j]? = some a) : i = j := by
  obtain ⟨inside, rfl⟩ := List.getElem?_eq_some_iff.mp here
  exact (List.getElem?_inj inside distinct).mp (here.trans there.symm)

theorem named_oneToOne {rows : List (Linha K S)} {cols : List (Coluna S)}
    (places : (rows.map Linha.place).Nodup) (indexes : (cols.map Coluna.index).Nodup)
    (own : OneToOne pairs) : OneToOne (pairs.filterMap (named rows cols)) := by
  constructor
  · rw [List.Nodup, pairwise_map, pairwise_filterMap]
    refine (pairwise_map.mp own.left).imp fun {p q} differ a first b second same => differ ?_
    have one := (named_some first).1
    rw [same] at one
    exact same_place places one (named_some second).1
  · rw [List.Nodup, pairwise_map, pairwise_filterMap]
    refine (pairwise_map.mp own.right).imp fun {p q} differ a first b second same => differ ?_
    have one := (named_some first).2
    rw [same] at one
    exact same_place indexes one (named_some second).2

def ids (tracks : List (Track K S)) : List ℕ := tracks.map Track.trackId

theorem ids_modify (tracks : List (Track K S)) (place : ℕ) (recovering reset : Bool)
    (c : Coluna S) :
    ids (tracks.modify place (observe v cfg recovering reset c)) = ids tracks := by
  unfold ids
  refine List.ext_getElem? fun i => ?_
  rw [List.getElem?_map, List.getElem?_map, List.getElem?_modify]
  split <;> cases tracks[i]? <;> rfl

/-- What an association does to the tracker: it gives detections of its own to tracks of its own. -/
structure Juntou (rows : List (Linha K S)) (cols : List (Coluna S)) (s t : Passo K S) : Prop where
  ids : ids t.tracks = ids s.tracks
  nextId : t.nextId = s.nextId
  created : t.created = s.created
  given : ∃ novas, t.given = s.given ++ novas ∧ OneToOne novas ∧
    ∀ p ∈ novas, p.1 ∈ rows.map Linha.place ∧ p.2 ∈ cols.map Coluna.index

theorem Juntou.refl {rows : List (Linha K S)} {cols : List (Coluna S)} (s : Passo K S) :
    Juntou rows cols s s :=
  ⟨rfl, rfl, rfl, [], (append_nil _).symm, .nil, nofun⟩

variable (v cfg) in
theorem give_named (recovering : Bool) (rows : List (Linha K S)) (cols : List (Coluna S))
    (reset : List ℕ) (s : Passo K S) (p : ℕ × ℕ) :
    ids (give v cfg recovering rows cols reset s p).tracks = ids s.tracks ∧
      (give v cfg recovering rows cols reset s p).nextId = s.nextId ∧
      (give v cfg recovering rows cols reset s p).created = s.created ∧
      (give v cfg recovering rows cols reset s p).given =
        s.given ++ (named rows cols p).toList := by
  unfold give named
  cases rows[p.1]? with
  | none => exact ⟨rfl, rfl, rfl, (append_nil _).symm⟩
  | some l =>
    cases cols[p.2]? with
    | none => exact ⟨rfl, rfl, rfl, (append_nil _).symm⟩
    | some c => exact ⟨ids_modify s.tracks l.place recovering _ c, rfl, rfl, rfl⟩

variable (v cfg) in
theorem gives_named (recovering : Bool) (rows : List (Linha K S)) (cols : List (Coluna S))
    (reset : List ℕ) (pairs : List (ℕ × ℕ)) (s : Passo K S) :
    let t := pairs.foldl (give v cfg recovering rows cols reset) s
    ids t.tracks = ids s.tracks ∧ t.nextId = s.nextId ∧ t.created = s.created ∧
      t.given = s.given ++ pairs.filterMap (named rows cols) := by
  induction pairs generalizing s with
  | nil => exact ⟨rfl, rfl, rfl, (append_nil _).symm⟩
  | cons p pairs ih =>
    obtain ⟨tracks, next, created, given⟩ := give_named v cfg recovering rows cols reset s p
    obtain ⟨tracksLater, nextLater, createdLater, givenLater⟩ :=
      ih (give v cfg recovering rows cols reset s p)
    refine ⟨tracksLater.trans tracks, nextLater.trans next, createdLater.trans created, ?_⟩
    refine givenLater.trans ?_
    rw [given, append_assoc, filterMap_cons]
    cases named rows cols p <;> rfl

variable (v cfg) in
/-- An association comes to an end, and it joins the tracks and the detections it was given. -/
theorem associate_ends
    (solves : ∀ solve, hungarian = some solve → ∀ costs, OneToOne (solve costs)) (gate : ℚ)
    (recovering : Bool) {rows : List (Linha K S)} {cols : List (Coluna S)}
    (places : (rows.map Linha.place).Nodup) (indexes : (cols.map Coluna.index).Nodup)
    (s : Passo K S) : ∃ (t : Passo K S × ℕ) (n : ℕ), Juntou rows cols s t.1 ∧
      ∀ fuel, n < fuel → associate v cfg hungarian fuel gate recovering rows cols s = some t := by
  by_cases empty : (rows.isEmpty || cols.isEmpty) = true
  · exact ⟨(s, 0), 0, .refl s, fun fuel _ => if_pos empty⟩
  · obtain ⟨c, n, own, ends⟩ := settled_ends v cfg solves gate recovering rows cols
    refine ⟨deliver v cfg recovering rows cols s c, n, ?_, fun fuel enough => ?_⟩
    · obtain ⟨tracks, next, created, given⟩ := gives_named v cfg recovering rows cols
        c.velocityReset c.pairs
        { s with stats :=
          { s.stats with appearanceSwaps := s.stats.appearanceSwaps + c.appearanceSwaps } }
      refine ⟨tracks, next, created, _, given, named_oneToOne places indexes own,
        fun q inside => ?_⟩
      obtain ⟨p, _, same⟩ := mem_filterMap.mp inside
      exact ⟨List.mem_of_getElem? (named_some same).1, List.mem_of_getElem? (named_some same).2⟩
    · unfold associate
      rw [if_neg empty, ends fuel enough]
      rfl

end Association

/-! One update. -/

section Update

variable {K S F : Type} (v : Visao K S F) (cfg : Ajustes)
  {hungarian : Option (List (List ℚ) → List (ℕ × ℕ))} {fuel : ℕ}

theorem linhas_place (tracks : List (Track K S)) :
    (linhas v tracks).map Linha.place = List.range tracks.length := by
  unfold linhas
  rw [map_map, range_eq_range', ← zipIdx_map_snd]
  rfl

theorem colunas_index (q : Quadro F) :
    (colunas v cfg q).map Coluna.index = List.range q.deteccoes.length := by
  unfold colunas
  rw [map_map, range_eq_range', ← zipIdx_map_snd]
  rfl

theorem filter_places {rows : List (Linha K S)} (places : (rows.map Linha.place).Nodup)
    (keep : Linha K S → Bool) : ((rows.filter keep).map Linha.place).Nodup :=
  places.sublist (filter_sublist.map _)

theorem filter_indexes {cols : List (Coluna S)} (indexes : (cols.map Coluna.index).Nodup)
    (keep : Coluna S → Bool) : ((cols.filter keep).map Coluna.index).Nodup :=
  indexes.sublist (filter_sublist.map _)

variable {q : Quadro F} {i : ℕ}

theorem high_low_apart (strong : i ∈ (high v cfg q).map Coluna.index) :
    i ∉ (low v cfg q).map Coluna.index := by
  intro weak
  have distinct : ((colunas v cfg q).map Coluna.index).Nodup :=
    colunas_index v cfg q ▸ nodup_range
  obtain ⟨c, inHigh, rfl⟩ := mem_map.mp strong
  obtain ⟨d, inLow, same⟩ := mem_map.mp weak
  obtain ⟨hereC, scoreC⟩ := mem_filter.mp inHigh
  obtain ⟨hereD, scoreD⟩ := mem_filter.mp inLow
  obtain rfl := inj_on_of_nodup_map distinct hereD hereC same
  rw [Bool.and_eq_true, decide_eq_true_iff, decide_eq_true_iff] at scoreD
  exact absurd (of_decide_eq_true scoreC) (not_le.mpr scoreD.2)

variable {s : Passo K S}

theorem mem_matchedTracks : i ∈ s.matchedTracks ↔ i ∈ s.given.map Prod.fst := mem_toFinset

theorem mem_matchedDets : i ∈ s.matchedDets ↔ i ∈ s.given.map Prod.snd := mem_toFinset

/-- What the three associations keep. -/
structure Juntando (tracks : List (Track K S)) (next n : ℕ) (s : Passo K S) : Prop where
  ids : ids s.tracks = ids tracks
  nextId : s.nextId = next
  created : s.created = []
  given : OneToOne s.given
  places : ∀ p ∈ s.given, p.1 < tracks.length ∧ p.2 < n

variable {tracks : List (Track K S)}

theorem Juntando.associate {next n : ℕ} (before : Juntando tracks next n s)
    (solves : ∀ solve, hungarian = some solve → ∀ costs, OneToOne (solve costs)) (gate : ℚ)
    (recovering : Bool) {rows : List (Linha K S)} {cols : List (Coluna S)}
    (places : (rows.map Linha.place).Nodup) (indexes : (cols.map Coluna.index).Nodup)
    (known : ∀ i ∈ rows.map Linha.place, i < tracks.length ∧ i ∉ s.given.map Prod.fst)
    (seen : ∀ i ∈ cols.map Coluna.index, i < n ∧ i ∉ s.given.map Prod.snd) :
    ∃ (t : Passo K S × ℕ) (m : ℕ), Juntando tracks next n t.1 ∧ Juntou rows cols s t.1 ∧
      ∀ fuel, m < fuel →
        AjustCamTracker.associate v cfg hungarian fuel gate recovering rows cols s = some t := by
  obtain ⟨t, m, joined, ends⟩ :=
    associate_ends v cfg solves gate recovering places indexes s
  refine ⟨t, m, ?_, joined, ends⟩
  obtain ⟨novas, given, own, among⟩ := joined.given
  refine ⟨joined.ids.trans before.ids, joined.nextId.trans before.nextId,
    joined.created.trans before.created, ?_, fun p inside => ?_⟩
  · rw [given]
    exact before.given.append own fun p inside =>
      ⟨(known p.1 (among p inside).1).2, (seen p.2 (among p inside).2).2⟩
  · rw [given] at inside
    rcases mem_append.mp inside with earlier | later
    · exact before.places p earlier
    · exact ⟨(known p.1 (among p later).1).1, (seen p.2 (among p later).2).1⟩

theorem filtered_place {keep : Linha K S → Bool}
    (inside : i ∈ ((linhas v tracks).filter keep).map Linha.place) : i < tracks.length := by
  have row := (filter_sublist.map Linha.place).subset inside
  rw [linhas_place] at row
  exact mem_range.mp row

theorem filtered_index {keep : Coluna S → Bool}
    (inside : i ∈ ((colunas v cfg q).filter keep).map Coluna.index) : i < q.deteccoes.length := by
  have col := (filter_sublist.map Coluna.index).subset inside
  rw [colunas_index] at col
  exact mem_range.mp col

theorem associations_end
    (solves : ∀ solve, hungarian = some solve → ∀ costs, OneToOne (solve costs))
    (q : Quadro F) (s : Passo K S) (fresh : s.given = []) (new : s.created = []) :
    ∃ (t : Passo K S) (m : ℕ), Juntando s.tracks s.nextId q.deteccoes.length t ∧
      ∀ fuel, m < fuel → associations v cfg hungarian fuel q s = some t := by
  have places : ((linhas v s.tracks).map Linha.place).Nodup := linhas_place v _ ▸ nodup_range
  have indexes : ((colunas v cfg q).map Coluna.index).Nodup :=
    colunas_index v cfg q ▸ nodup_range
  have start : Juntando s.tracks s.nextId q.deteccoes.length s :=
    ⟨rfl, rfl, new, fresh ▸ .nil, fresh ▸ nofun⟩
  -- the strong detections
  obtain ⟨one, first, afterOne, joinedOne, endsOne⟩ := start.associate v cfg solves cfg.matchGate
    false (filter_places places fun l => !l.track.lost) (filter_indexes indexes _)
    (fun i inside => ⟨filtered_place v inside, fresh ▸ nofun⟩)
    (fun i inside => ⟨filtered_index v cfg inside, fresh ▸ nofun⟩)
  obtain ⟨novas, given, -, among⟩ := joinedOne.given
  have strong : ∀ i ∈ one.1.given.map Prod.snd, i ∈ (high v cfg q).map Coluna.index := by
    intro i inside
    obtain ⟨p, own, rfl⟩ := mem_map.mp inside
    rw [given, fresh, nil_append] at own
    exact (among p own).2
  -- the weak ones, for the active tracks that are left
  obtain ⟨two, second, afterTwo, -, endsTwo⟩ := afterOne.associate v cfg solves cfg.matchGate false
    (filter_places (filter_places places fun l => !l.track.lost)
      fun l => decide (l.place ∉ one.1.matchedTracks))
    (filter_indexes indexes fun c => decide (cfg.lowConfFloor ≤ c.score) &&
      decide (c.score < cfg.activationThreshold))
    (fun i inside => by
      obtain ⟨l, own, rfl⟩ := mem_map.mp inside
      obtain ⟨active, left⟩ := mem_filter.mp own
      exact ⟨filtered_place v (mem_map_of_mem active),
        fun taken => of_decide_eq_true left (mem_matchedTracks.mpr taken)⟩)
    (fun i inside => ⟨filtered_index v cfg inside,
      fun taken => high_low_apart v cfg (strong i taken) inside⟩)
  -- the lost tracks
  obtain ⟨three, third, afterThree, -, endsThree⟩ := afterTwo.associate v cfg solves
    cfg.recoveryGate true
    (filter_places (filter_places places fun l => l.track.lost)
      fun l => decide (l.place ∉ two.1.matchedTracks))
    (filter_indexes (filter_indexes indexes fun c => decide (cfg.activationThreshold ≤ c.score))
      fun c => decide (c.index ∉ two.1.matchedDets))
    (fun i inside => by
      obtain ⟨l, own, rfl⟩ := mem_map.mp inside
      obtain ⟨lost, left⟩ := mem_filter.mp own
      exact ⟨filtered_place v (mem_map_of_mem lost),
        fun taken => of_decide_eq_true left (mem_matchedTracks.mpr taken)⟩)
    (fun i inside => by
      obtain ⟨c, own, rfl⟩ := mem_map.mp inside
      obtain ⟨here, left⟩ := mem_filter.mp own
      exact ⟨filtered_index v cfg (mem_map_of_mem here),
        fun taken => of_decide_eq_true left (mem_matchedDets.mpr taken)⟩)
  refine ⟨{ three.1 with stats := { three.1.stats with
      lowConfMatches := three.1.stats.lowConfMatches +
        (two.1.matchedDets.card - one.1.matchedDets.card)
      recoveries := three.1.stats.recoveries + three.2 } }, max first (max second third),
    ⟨afterThree.ids, afterThree.nextId, afterThree.created, afterThree.given, afterThree.places⟩,
    fun fuel enough => ?_⟩
  have more := max_lt_iff.mp enough
  have others := max_lt_iff.mp more.2
  exact Option.bind_eq_some_iff.mpr ⟨one, endsOne fuel more.1,
    Option.bind_eq_some_iff.mpr ⟨two, endsTwo fuel others.1,
      Option.bind_eq_some_iff.mpr ⟨three, endsThree fuel others.2, rfl⟩⟩⟩

theorem missAll_ids (now : ℚ) (s : Passo K S) :
    ids (missAll v cfg now s).tracks = ids s.tracks := by
  unfold ids missAll
  rw [map_map]
  refine List.ext_getElem? fun i => ?_
  rw [List.getElem?_map, List.getElem?_map, List.getElem?_zipIdx, Option.map_map]
  cases s.tracks[i]? with
  | none => rfl
  | some t =>
    refine congrArg some ?_
    simp only [Function.comp_apply]
    split <;> rfl

theorem mem_high {c : Coluna S} (inside : c ∈ high v cfg q) :
    ∃ d, q.deteccoes[c.index]? = some d ∧ cfg.activationThreshold ≤ d.score := by
  obtain ⟨here, strong⟩ := mem_filter.mp inside
  obtain ⟨⟨d, i⟩, listed, rfl⟩ := mem_map.mp here
  exact ⟨d, (List.mk_mem_zipIdx_iff_getElem?).mp listed, of_decide_eq_true strong⟩

/-- What the creation of tracks keeps. -/
structure Criando (q : Quadro F) (tracks : List (Track K S)) (next : ℕ) (s : Passo K S) :
    Prop where
  ids : ids s.tracks = ids tracks ++ s.created.map Prod.fst
  numbers : s.created.map Prod.fst = List.range' next s.created.length
  nextId : s.nextId = next + s.created.length
  given : OneToOne s.given
  places : ∀ p ∈ s.given, p.1 < s.tracks.length ∧ p.2 < q.deteccoes.length
  strong : ∀ c ∈ s.created, ∃ d, q.deteccoes[c.2]? = some d ∧ cfg.activationThreshold ≤ d.score

variable {v cfg} in
theorem Criando.create {next : ℕ} (before : Criando cfg q tracks next s) {c : Coluna S}
    (inside : c ∈ high v cfg q) : Criando cfg q tracks next (create v cfg s c) := by
  unfold AjustCamTracker.create
  split
  · exact before
  · rename_i free
    obtain ⟨d, here, strong⟩ := mem_high v cfg inside
    constructor
    · rw [AjustCamTracker.ids, map_append, map_append, ← append_assoc]
      exact congrArg (· ++ [s.nextId]) before.ids
    · rw [map_append, length_append, length_singleton, List.range'_concat,
        before.numbers, before.nextId, Nat.one_mul]
      rfl
    · rw [length_append, length_singleton, before.nextId]
      rfl
    · refine before.given.snoc (fun taken => ?_) fun taken => free (mem_matchedDets.mpr taken)
      obtain ⟨p, own, same⟩ := mem_map.mp taken
      have low := (before.places p own).1
      rw [same] at low
      exact lt_irrefl _ low
    · intro p own
      rw [length_append, length_singleton]
      rcases mem_append.mp own with earlier | new
      · have places := before.places p earlier
        exact ⟨Nat.lt_succ_of_lt places.1, places.2⟩
      · obtain rfl := mem_singleton.mp new
        exact ⟨Nat.lt_succ_self _, (List.getElem?_eq_some_iff.mp here).1⟩
    · intro k own
      rcases mem_append.mp own with earlier | new
      · exact before.strong k earlier
      · obtain rfl := mem_singleton.mp new
        exact ⟨d, here, strong⟩

variable {v cfg} in
theorem Criando.creates {next : ℕ} (cols : List (Coluna S)) (strong : ∀ c ∈ cols, c ∈ high v cfg q)
    (before : Criando cfg q tracks next s) :
    Criando cfg q tracks next (cols.foldl (AjustCamTracker.create v cfg) s) := by
  induction cols generalizing s with
  | nil => exact before
  | cons c cols ih =>
    exact ih (fun k inside => strong k (mem_cons_of_mem _ inside))
      (before.create (strong c (mem_cons_self ..)))

theorem emit_id (matched : Finset ℕ) (t : Track K S) (i : ℕ) :
    (emit v cfg matched t i).1.trackId = t.trackId ∧
      ∀ b, (emit v cfg matched t i).2 = some b → b.trackId = t.trackId := by
  have still : (updateStationary cfg t).trackId = t.trackId := by
    unfold updateStationary
    simp only
    split_ifs <;> rfl
  unfold emit
  simp only
  split_ifs
  · exact ⟨rfl, nofun⟩
  · exact ⟨rfl, nofun⟩
  · exact ⟨still, fun b same => by cases same; exact still⟩
  · exact ⟨rfl, fun b same => by cases same; rfl⟩

theorem emitted_ids (matched : Finset ℕ) (rest : List (Track K S × ℕ)) :
    ids ((rest.map fun p => emit v cfg matched p.1 p.2).map Prod.fst) =
        rest.map (fun p => p.1.trackId) ∧
      (((rest.map fun p => emit v cfg matched p.1 p.2).filterMap Prod.snd).map
        TrackedBox.trackId).Sublist (rest.map fun p => p.1.trackId) := by
  induction rest with
  | nil => exact ⟨rfl, List.Sublist.refl _⟩
  | cons p rest ih =>
    obtain ⟨tracks, output⟩ := ih
    obtain ⟨same, box⟩ := emit_id v cfg matched p.1 p.2
    unfold ids at tracks ⊢
    rw [map_cons, map_cons, map_cons, map_cons, tracks, same, filterMap_cons]
    refine ⟨rfl, ?_⟩
    cases put : (emit v cfg matched p.1 p.2).2 with
    | none => exact output.cons _
    | some b =>
      rw [map_cons, box b put]
      exact output.cons_cons _

/-- What an update does, between the tracker before it and what it leaves. -/
structure Boa (q : Quadro F) (t : Tracker K S) (u : Atualizacao K S) : Prop where
  given : OneToOne u.given
  places : ∀ p ∈ u.given, p.1 < u.tracks.length ∧ p.2 < q.deteccoes.length
  ids : ids u.tracks = ids t.tracks ++ u.created.map Prod.fst
  numbers : u.created.map Prod.fst = List.range' t.nextId u.created.length
  nextId : u.tracker.nextId = t.nextId + u.created.length
  strong : ∀ c ∈ u.created, ∃ d, q.deteccoes[c.2]? = some d ∧ cfg.activationThreshold ≤ d.score
  kept : (AjustCamTracker.ids u.tracker.tracks).Sublist (AjustCamTracker.ids u.tracks)
  output : (u.output.map TrackedBox.trackId).Sublist (AjustCamTracker.ids u.tracks)

theorem finish_ids (now : ℚ) (s : Passo K S) :
    (ids (finish v cfg now s).tracker.tracks).Sublist (ids s.tracks) ∧
      ((finish v cfg now s).output.map TrackedBox.trackId).Sublist (ids s.tracks) := by
  have kept : ((s.tracks.zipIdx.filter fun p => !expired cfg now p.1).map
      fun p => p.1.trackId).Sublist (ids s.tracks) := by
    have front := (filter_sublist (p := fun p : Track K S × ℕ => !expired cfg now p.1)
      (l := s.tracks.zipIdx)).map fun p => p.1.trackId
    have all : s.tracks.zipIdx.map (fun p => p.1.trackId) = ids s.tracks := by
      rw [ids, ← zipIdx_map_fst 0 s.tracks, map_map, zipIdx_map_fst]
      rfl
    rwa [all] at front
  obtain ⟨tracks, output⟩ := emitted_ids v cfg s.matchedTracks
    (s.tracks.zipIdx.filter fun p => !expired cfg now p.1)
  constructor
  · rw [← tracks] at kept
    exact kept
  · exact output.trans kept

theorem update_ends
    (solves : ∀ solve, hungarian = some solve → ∀ costs, OneToOne (solve costs))
    (t : Tracker K S) (q : Quadro F) : ∃ (u : Atualizacao K S) (m : ℕ), Boa cfg q t u ∧
      ∀ fuel, m < fuel → update v cfg hungarian fuel t q = some u := by
  obtain ⟨s, m, joined, ends⟩ := associations_end v cfg solves q
    (⟨t.tracks.map fun k => { k with kf := v.predict k.kf }, t.nextId, t.stats, [], []⟩ : Passo K S)
    rfl rfl
  have predicted : ids (t.tracks.map fun k => { k with kf := v.predict k.kf }) = ids t.tracks := by
    unfold ids
    rw [map_map]
    rfl
  have missed := missAll_ids v cfg q.now s
  have start : Criando cfg q t.tracks t.nextId (missAll v cfg q.now s) := by
    have none_ : (missAll v cfg q.now s).created = [] := joined.created
    have sizes := congrArg List.length (missed.trans joined.ids)
    unfold ids at sizes
    rw [length_map, length_map] at sizes
    refine ⟨?_, ?_, ?_, joined.given, fun p own => ?_, ?_⟩
    · rw [none_, map_nil, append_nil, missed, joined.ids, predicted]
    · rw [none_]
      rfl
    · rw [none_]
      exact joined.nextId
    · rw [sizes]
      exact joined.places p own
    · rw [none_]
      exact nofun
  have made := start.creates (high v cfg q) fun c own => own
  refine ⟨finish v cfg q.now ((high v cfg q).foldl (create v cfg) (missAll v cfg q.now s)), m,
    ⟨made.given, made.places, made.ids, made.numbers, made.nextId, made.strong,
      (finish_ids v cfg q.now _).1, (finish_ids v cfg q.now _).2⟩, fun fuel enough => ?_⟩
  exact Option.map_eq_some_iff.mpr ⟨s, ends fuel enough, rfl⟩

variable {v} in
theorem Boa.of_same {t t' : Tracker K S} {u : Atualizacao K S} (good : Boa cfg q t u)
    (same : AjustCamTracker.ids t.tracks = AjustCamTracker.ids t'.tracks)
    (next : t.nextId = t'.nextId) : Boa cfg q t' u where
  given := good.given
  places := good.places
  ids := same ▸ good.ids
  numbers := next ▸ good.numbers
  nextId := next ▸ good.nextId
  strong := good.strong
  kept := good.kept
  output := good.output

/-! The whole run. -/

/-- Updates that follow one another; between them the tracks only move. -/
def Segue : Tracker K S → List (Quadro F × Atualizacao K S) → Prop
  | _, [] => True
  | t, (q, u) :: rest => Boa cfg q t u ∧ Segue u.tracker rest

/-- The tracks of an update are some of those before, in their order, and the new ones. -/
def Continua : List ℕ → List (Quadro F × Atualizacao K S) → Prop
  | _, [] => True
  | antes, (_, u) :: rest =>
    (∃ ficaram : List ℕ, ficaram.Sublist antes ∧ ids u.tracks = ficaram ++ u.created.map Prod.fst) ∧
    Continua (ids u.tracks) rest

theorem applyGlobalShift_same (dx dy scale : ℚ) (t : Tracker K S) :
    ids (applyGlobalShift v dx dy scale t).tracks = ids t.tracks ∧
      (applyGlobalShift v dx dy scale t).nextId = t.nextId := by
  unfold applyGlobalShift
  split
  · exact ⟨rfl, rfl⟩
  · refine ⟨?_, rfl⟩
    unfold ids
    rw [map_map]
    rfl

variable {cfg} in
theorem Segue.of_same {t t' : Tracker K S} {feitas : List (Quadro F × Atualizacao K S)}
    (follows : Segue cfg t feitas) (same : ids t.tracks = ids t'.tracks)
    (next : t.nextId = t'.nextId) : Segue cfg t' feitas := by
  cases feitas with
  | nil => exact trivial
  | cons qu rest => exact ⟨follows.1.of_same cfg same next, follows.2⟩

theorem chamadas_end
    (solves : ∀ solve, hungarian = some solve → ∀ costs, OneToOne (solve costs))
    (chamadas : List (Chamada F)) (r : Rastreio K S F) :
    ∃ (s : Rastreio K S F) (novas : List (Quadro F × Atualizacao K S)) (m : ℕ),
      s.feitas = r.feitas ++ novas ∧ Segue cfg r.tracker novas ∧
      ∀ fuel, m < fuel → Runs.run (chamar v cfg hungarian fuel) r chamadas = some s := by
  induction chamadas generalizing r with
  | nil => exact ⟨r, [], 0, (append_nil _).symm, trivial, fun fuel _ => rfl⟩
  | cons chamada chamadas ih =>
    cases chamada with
    | applyGlobalShift dx dy scale =>
      obtain ⟨same, next⟩ := applyGlobalShift_same v dx dy scale r.tracker
      obtain ⟨s, novas, m, feitas, follows, ends⟩ :=
        ih { r with tracker := applyGlobalShift v dx dy scale r.tracker }
      exact ⟨s, novas, m, feitas, follows.of_same same next, fun fuel enough =>
        Option.bind_eq_some_iff.mpr ⟨_, rfl, ends fuel enough⟩⟩
    | update q =>
      obtain ⟨u, first, good, once⟩ := update_ends v cfg solves r.tracker q
      obtain ⟨s, novas, m, feitas, follows, ends⟩ := ih ⟨u.tracker, r.feitas ++ [(q, u)]⟩
      refine ⟨s, (q, u) :: novas, max first m, ?_, ⟨good, follows⟩, fun fuel enough => ?_⟩
      · rw [feitas, append_assoc]
        rfl
      · have both := max_lt_iff.mp enough
        exact Option.bind_eq_some_iff.mpr ⟨_, Option.map_eq_some_iff.mpr
          ⟨u, once fuel both.1, rfl⟩, ends fuel both.2⟩

variable {cfg} {t : Tracker K S}

theorem Segue.numbers {feitas : List (Quadro F × Atualizacao K S)} (follows : Segue cfg t feitas) :
    ∃ n,
      (feitas.flatMap fun qu => qu.2.created.map Prod.fst) = List.range' t.nextId n := by
  induction feitas generalizing t with
  | nil => exact ⟨0, rfl⟩
  | cons qu rest ih =>
    obtain ⟨good, later⟩ := follows
    obtain ⟨n, numbers⟩ := ih later
    refine ⟨qu.2.created.length + n, ?_⟩
    rw [flatMap_cons, numbers, good.numbers, good.nextId, ← List.range'_append_1]

theorem Segue.continua {antes : List ℕ} {feitas : List (Quadro F × Atualizacao K S)}
    (follows : Segue cfg t feitas) (among : (ids t.tracks).Sublist antes) :
    Continua antes feitas := by
  induction feitas generalizing t antes with
  | nil => exact trivial
  | cons qu rest ih =>
    obtain ⟨good, later⟩ := follows
    exact ⟨⟨ids t.tracks, among, good.ids⟩, ih later good.kept⟩

theorem Boa.distinct {u : Atualizacao K S} (good : Boa cfg q t u)
    (distinct : (AjustCamTracker.ids t.tracks).Nodup)
    (below : ∀ k ∈ AjustCamTracker.ids t.tracks, k < t.nextId) :
    (AjustCamTracker.ids u.tracks).Nodup ∧
      ∀ k ∈ AjustCamTracker.ids u.tracks, k < u.tracker.nextId := by
  rw [good.ids, good.numbers, good.nextId]
  constructor
  · refine nodup_append'.mpr ⟨distinct, nodup_range', ?_⟩
    refine disjoint_right.mpr fun k new old => ?_
    have above := (List.mem_range'_1.mp new).1
    have under := below k old
    omega
  · intro k inside
    rcases mem_append.mp inside with old | new
    · have under := below k old
      omega
    · exact (List.mem_range'_1.mp new).2

theorem Segue.each {feitas : List (Quadro F × Atualizacao K S)} (follows : Segue cfg t feitas)
    (distinct : (ids t.tracks).Nodup) (below : ∀ k ∈ ids t.tracks, k < t.nextId) :
    ∀ qu ∈ feitas, (ids qu.2.tracks).Nodup ∧ ∃ before, Boa cfg qu.1 before qu.2 := by
  induction feitas generalizing t with
  | nil => exact nofun
  | cons qu rest ih =>
    obtain ⟨good, later⟩ := follows
    obtain ⟨distinctNow, belowNow⟩ := good.distinct distinct below
    intro one inside
    rcases mem_cons.mp inside with rfl | elsewhere
    · exact ⟨distinctNow, t, good⟩
    · exact ih later (distinctNow.sublist good.kept)
        (fun k own => belowNow k (good.kept.subset own)) one elsewhere

/-- Association is a matching in every update, only strong detections make tracks, and an id stays
with the track it was made for. -/
theorem rastreio_casa (v : Visao K S F) (cfg : Ajustes)
    (hungarian : Option (List (List ℚ) → List (ℕ × ℕ)))
    (solves : ∀ solve, hungarian = some solve → ∀ costs, OneToOne (solve costs))
    (chamadas : List (Chamada F)) :
    ∃ (r : Rastreio K S F) (m : ℕ),
      (∀ fuel, m < fuel → Runs.run (chamar v cfg hungarian fuel) {} chamadas = some r) ∧
      (∀ qu ∈ r.feitas,
        OneToOne qu.2.given ∧
        (∀ p ∈ qu.2.given, p.1 < qu.2.tracks.length ∧ p.2 < qu.1.deteccoes.length) ∧
        (ids qu.2.tracks).Nodup ∧
        (∀ c ∈ qu.2.created, ∃ d, qu.1.deteccoes[c.2]? = some d ∧
          cfg.activationThreshold ≤ d.score) ∧
        (qu.2.output.map TrackedBox.trackId).Nodup ∧
        ∀ b ∈ qu.2.output, b.trackId ∈ ids qu.2.tracks) ∧
      (r.feitas.flatMap fun qu => qu.2.created.map Prod.fst).Nodup ∧
      Continua [] r.feitas := by
  obtain ⟨r, novas, m, feitas, follows, ends⟩ := chamadas_end v cfg solves chamadas {}
  obtain rfl : r.feitas = novas := feitas
  refine ⟨r, m, ends, fun qu inside => ?_, ?_, follows.continua (List.Sublist.refl _)⟩
  · obtain ⟨distinct, before, good⟩ := follows.each nodup_nil nofun qu inside
    exact ⟨good.given, good.places, distinct, good.strong, distinct.sublist good.output,
      fun b own => good.output.subset (mem_map_of_mem own)⟩
  · obtain ⟨n, numbers⟩ := follows.numbers
    rw [numbers]
    exact nodup_range'

end Update

/-- A filter that stays where the object was last seen, without OpenCV. -/
def parado : Visao Medida Unit Unit where
  kalman := id
  predict := id
  position := id
  correct := fun _ z => z
  damp := id
  stop := id
  shift := fun dx dy s z => ⟨z.x * s + dx, z.y * s + dy, z.w * s, z.h * s⟩
  distance := distance
  signature := fun _ _ => none
  overlap := fun _ _ => 1
  mix := fun _ new => new

/-- Each track with the detection at its own place, as the cheapest one. -/
def emOrdem (costs : List (List ℚ)) : List (ℕ × ℕ) :=
  (range costs.length).map fun i => (i, i)

theorem emOrdem_oneToOne (costs : List (List ℚ)) : OneToOne (emOrdem costs) := by
  constructor
  all_goals
    rw [emOrdem, map_map]
    exact nodup_range.map fun _ _ same => same

/-- Two objects that are seen twice, the camera moving in between. -/
theorem rastreio_casa_parado : ∃ (r : Rastreio Medida Unit Unit) (m : ℕ),
    (∀ fuel, m < fuel → Runs.run
      (chamar parado { classId := 0, activationThreshold := 1 / 2, maxActiveMisses := 5 }
        (some emOrdem) fuel) {}
      [.update ⟨1, [⟨⟨0, 0, 10, 20⟩, 9 / 10⟩, ⟨⟨100, 0, 110, 20⟩, 4 / 5⟩], none⟩,
        .applyGlobalShift 3 0 1,
        .update ⟨2, [⟨⟨3, 0, 13, 20⟩, 9 / 10⟩, ⟨⟨103, 0, 113, 20⟩, 4 / 5⟩], none⟩] = some r) ∧
      (r.feitas.flatMap fun qu => qu.2.created.map Prod.fst).Nodup ∧ Continua [] r.feitas := by
  obtain ⟨r, m, ends, _, numbers, continua⟩ := rastreio_casa parado
    { classId := 0, activationThreshold := 1 / 2, maxActiveMisses := 5 } (some emOrdem)
    (fun solve same costs => by
      obtain rfl := Option.some.inj same
      exact emOrdem_oneToOne costs)
    [.update ⟨1, [⟨⟨0, 0, 10, 20⟩, 9 / 10⟩, ⟨⟨100, 0, 110, 20⟩, 4 / 5⟩], none⟩,
      .applyGlobalShift 3 0 1,
      .update ⟨2, [⟨⟨3, 0, 13, 20⟩, 9 / 10⟩, ⟨⟨103, 0, 113, 20⟩, 4 / 5⟩], none⟩]
  exact ⟨r, m, ends, numbers, continua⟩

end DracVms.AjustCamTracker
