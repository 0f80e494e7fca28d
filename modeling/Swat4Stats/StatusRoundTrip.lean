import Swat4Stats.StatusExpansion

/-!
# Expanding a payload undoes encoding it

A status has base parameters, players with parameters of their own, and objectives. Its pairs may
be sent in any order that keeps the order within each of these; the expansion gives every part back.
-/

namespace Swat4Stats

set_option autoImplicit false

namespace ServerStatusTask

def IsPlain (text : Text) : Prop := '\\' ∉ text ∧ '\n' ∉ text

instance (text : Text) : Decidable (IsPlain text) := inferInstanceAs (Decidable (_ ∧ _))

def reservedKeys : List Text := [playersKey, objectivesKey, queryid, final]

/-- A player has its number as the id, written in decimal. -/
structure Status where
  base : List (Text × Text)
  players : List (ℕ × List (Text × Text))
  objectives : List (Text × Text)
  baseKeys : (base.map Prod.fst).Nodup
  baseForms : ∀ param ∈ base, ¬ ObjectiveForm param.1 ∧ ¬ PlayerForm param.1 ∧
    param.1 ∉ reservedKeys
  ids : (players.map Prod.fst).Nodup
  params : ∀ player ∈ players, player.2 ≠ [] ∧ (player.2.map Prod.fst).Nodup
  names : ∀ player ∈ players, ∀ param ∈ player.2, param.1 ≠ [] ∧ param.1 ≠ idKey ∧
    param.1 ≠ "obj".toList ∧ ¬ "obj_".toList <+: param.1
  objectiveNames : ∀ objective ∈ objectives, objective.1 ≠ []
  plainBase : ∀ param ∈ base, IsPlain param.1 ∧ IsPlain param.2
  plainPlayers : ∀ player ∈ players, ∀ param ∈ player.2, IsPlain param.1 ∧ IsPlain param.2
  plainObjectives : ∀ objective ∈ objectives, IsPlain objective.1 ∧ IsPlain objective.2

inductive StatusItem where
  | base (key value : Text)
  | player (id : ℕ) (param value : Text)
  | objective (name status : Text)

def StatusItem.pair : StatusItem → Text × Text
  | base key value => (key, value)
  | player id param value => (param ++ '_' :: Nat.toDigits 10 id, value)
  | objective name status => ("obj_".toList ++ name, status)

def baseOf (items : List StatusItem) : List (Text × Text) := items.filterMap fun item =>
  match item with
  | .base key value => some (key, value)
  | _ => none

def paramsOf (id : ℕ) (items : List StatusItem) : List (Text × Text) := items.filterMap fun item =>
  match item with
  | .player other param value => if other = id then some (param, value) else none
  | _ => none

def objectivesOf (items : List StatusItem) : List (Text × Text) := items.filterMap fun item =>
  match item with
  | .objective name status => some (name, status)
  | _ => none

/-- The items of the status, the parts interleaved in some way. -/
structure Interleaves (status : Status) (items : List StatusItem) : Prop where
  base : baseOf items = status.base
  objectives : objectivesOf items = status.objectives
  players : ∀ player ∈ status.players, paramsOf player.1 items = player.2
  others : ∀ id, id ∉ status.players.map Prod.fst → paramsOf id items = []

/-- The payload ends with `queryid` and `final`. -/
def encodeStatus (items : List StatusItem) (queryidValue finalValue : Text) : Text :=
  payloadOf (items.map StatusItem.pair ++ [(queryid, queryidValue), (final, finalValue)])

def playerInfo (player : ℕ × List (Text × Text)) : PlayerInfo :=
  (idKey, Nat.toDigits 10 player.1) :: player.2

def objectiveInfo (objective : Text × Text) : ObjectiveInfo := ⟨objective.1, objective.2⟩

def textEntry (param : Text × Text) : Text × InfoValue := (param.1, .text param.2)

/-- The players by number, each with its id and its parameters. -/
def Status.info (status : Status) (queryidValue finalValue : Text) : ServerInfo :=
  (playersKey,
    .playerList ((status.players.insertionSort fun a b => a.1 ≤ b.1).map playerInfo)) ::
  (objectivesKey, .objectives (status.objectives.map objectiveInfo)) ::
  (status.base ++ [(queryid, queryidValue), (final, finalValue)]).map textEntry

variable {status : Status} {items : List StatusItem} {item : StatusItem}

/-- The result while the pairs are read. -/
def expanded (players : OrderedDict Text PlayerInfo) (objectives base : List (Text × Text)) :
    ServerInfo :=
  (playersKey, .players players) :: (objectivesKey, .objectives (objectives.map objectiveInfo)) ::
    base.map textEntry

theorem expandParam_base {players : OrderedDict Text PlayerInfo}
    {objectives base : List (Text × Text)} {key value : Text} (hline : '\n' ∉ key)
    (hobjective : ¬ ObjectiveForm key) (hplayer : ¬ PlayerForm key)
    (hplayers : key ≠ playersKey) (hobjectives : key ≠ objectivesKey)
    (hkey : key ∉ base.map Prod.fst) :
    expandParam (expanded players objectives base) (key, value) =
      .ok (expanded players objectives (base ++ [(key, value)])) := by
  have hnew : key ∉ OrderedDict.keys (base.map textEntry) := by
    rw [OrderedDict.keys, List.map_map]
    exact hkey
  rw [expandParam, objPattern_eq_none hobjective]
  simp only [playerPattern_eq_none hline hplayer, expanded, OrderedDict.set]
  rw [if_neg hplayers.symm, if_neg hobjectives.symm, OrderedDict.set_of_not_mem hnew]
  simp [textEntry]

theorem expandParam_objective {players : OrderedDict Text PlayerInfo}
    {objectives base : List (Text × Text)} {name value : Text} (hne : name ≠ [])
    (hline : '\n' ∉ name) :
    expandParam (expanded players objectives base) ("obj_".toList ++ name, value) =
      .ok (expanded players (objectives ++ [(name, value)]) base) := by
  have hkeys : playersKey ≠ objectivesKey := by decide
  rw [expandParam, objPattern_objective hne hline]
  simp [appendObjective, expanded, OrderedDict.get?, OrderedDict.set, hkeys, matchGroup,
    objectiveInfo]

theorem not_objectiveForm_player {param : Text} (hobj : param ≠ "obj".toList)
    (hstart : ¬ "obj_".toList <+: param) (id : ℕ) :
    ¬ ObjectiveForm (param ++ '_' :: Nat.toDigits 10 id) := by
  rintro ⟨name, _, heq⟩
  have hkey : "obj_".toList <+: param ++ '_' :: Nat.toDigits 10 id := ⟨name, heq.symm⟩
  obtain hle | hlt := le_or_gt "obj_".toList.length param.length
  · exact hstart (List.prefix_of_prefix_length_le hkey (List.prefix_append ..) hle)
  · have hparam : param ++ ['_'] <+: param ++ '_' :: Nat.toDigits 10 id :=
      ⟨Nat.toDigits 10 id, by simp⟩
    have hshort : param ++ ['_'] <+: "obj_".toList := by
      apply List.prefix_of_prefix_length_le hparam hkey
      rw [List.length_append, List.length_singleton]
      omega
    have hall : ∀ l ∈ "obj_".toList.inits, l.getLast? = some '_' → l.dropLast = "obj".toList := by
      decide
    have hobj' := hall _ ((List.mem_inits _ _).mpr hshort) (by simp)
    rw [List.dropLast_concat] at hobj'
    exact hobj hobj'

theorem expandParam_player {players : OrderedDict Text PlayerInfo}
    {objectives base : List (Text × Text)} {param value : Text} (id : ℕ) (hne : param ≠ [])
    (hline : '\n' ∉ param) (hobj : param ≠ "obj".toList) (hstart : ¬ "obj_".toList <+: param) :
    expandParam (expanded players objectives base) (param ++ '_' :: Nat.toDigits 10 id, value) =
      .ok (expanded (OrderedDict.set players (Nat.toDigits 10 id)
        (OrderedDict.set ((OrderedDict.get? players (Nat.toDigits 10 id)).getD
          [(idKey, Nat.toDigits 10 id)]) param value)) objectives base) := by
  have hdigits : ∀ c ∈ Nat.toDigits 10 id, c.isDigit = true := fun c hc =>
    Text.isDigit_of_mem_toDigits hc
  rw [expandParam, objPattern_eq_none (not_objectiveForm_player hobj hstart id)]
  simp [playerPattern_player hne hline Nat.toDigits_ne_nil hdigits, setPlayerParam, expanded,
    OrderedDict.set, matchGroup, List.lookup_cons]

theorem baseOf_append (first rest : List StatusItem) :
    baseOf (first ++ rest) = baseOf first ++ baseOf rest := List.filterMap_append

theorem paramsOf_append (id : ℕ) (first rest : List StatusItem) :
    paramsOf id (first ++ rest) = paramsOf id first ++ paramsOf id rest := List.filterMap_append

theorem objectivesOf_append (first rest : List StatusItem) :
    objectivesOf (first ++ rest) = objectivesOf first ++ objectivesOf rest := List.filterMap_append

/-- What the pairs have to satisfy to be told apart again. -/
structure Distinct (items : List StatusItem) : Prop where
  baseKeys : ((baseOf items).map Prod.fst).Nodup
  params : ∀ id, ((paramsOf id items).map Prod.fst).Nodup
  base : ∀ param ∈ baseOf items, (¬ ObjectiveForm param.1 ∧ ¬ PlayerForm param.1 ∧
    param.1 ∉ reservedKeys) ∧ IsPlain param.1 ∧ IsPlain param.2
  names : ∀ id, ∀ param ∈ paramsOf id items, (param.1 ≠ [] ∧ param.1 ≠ idKey ∧
    param.1 ≠ "obj".toList ∧ ¬ "obj_".toList <+: param.1) ∧ IsPlain param.1 ∧ IsPlain param.2
  objectives : ∀ objective ∈ objectivesOf items, objective.1 ≠ [] ∧ IsPlain objective.1 ∧
    IsPlain objective.2

theorem Distinct.left {first rest : List StatusItem} (h : Distinct (first ++ rest)) :
    Distinct first where
  baseKeys := by
    have hkeys := h.baseKeys
    rw [baseOf_append, List.map_append] at hkeys
    exact hkeys.of_append_left
  params id := by
    have hparams := h.params id
    rw [paramsOf_append, List.map_append] at hparams
    exact hparams.of_append_left
  base param hparam := h.base param (by simp [baseOf_append, hparam])
  names id param hparam := h.names id param (by simp [paramsOf_append, hparam])
  objectives objective hobjective := h.objectives objective
    (by simp [objectivesOf_append, hobjective])

theorem Interleaves.distinct (h : Interleaves status items) : Distinct items := by
  have hparams : ∀ id, paramsOf id items = [] ∨
      ∃ player ∈ status.players, player.1 = id ∧ paramsOf id items = player.2 := by
    intro id
    obtain hid | hid := Classical.em (id ∈ status.players.map Prod.fst)
    · obtain ⟨player, hplayer, rfl⟩ := List.mem_map.mp hid
      exact Or.inr ⟨player, hplayer, rfl, h.players player hplayer⟩
    · exact Or.inl (h.others id hid)
  constructor
  · rw [h.base]
    exact status.baseKeys
  · intro id
    obtain hnil | ⟨player, hplayer, _, heq⟩ := hparams id
    · simp [hnil]
    · rw [heq]
      exact (status.params player hplayer).2
  · intro param hparam
    rw [h.base] at hparam
    exact ⟨status.baseForms param hparam, status.plainBase param hparam⟩
  · intro id param hparam
    obtain hnil | ⟨player, hplayer, _, heq⟩ := hparams id
    · rw [hnil] at hparam
      cases hparam
    · rw [heq] at hparam
      exact ⟨status.names player hplayer param hparam,
        status.plainPlayers player hplayer param hparam⟩
  · intro objective hobjective
    rw [h.objectives] at hobjective
    exact ⟨status.objectiveNames objective hobjective, status.plainObjectives objective hobjective⟩

/-- The dictionary of the players has those that have been met, with what has been read of each. -/
structure HoldsPlayers (items : List StatusItem) (players : OrderedDict Text PlayerInfo) :
    Prop where
  nodup : (OrderedDict.keys players).Nodup
  keys : ∀ key ∈ OrderedDict.keys players, ∃ id, key = Nat.toDigits 10 id ∧ paramsOf id items ≠ []
  get? : ∀ id, paramsOf id items ≠ [] →
    OrderedDict.get? players (Nat.toDigits 10 id) = some (playerInfo (id, paramsOf id items))

theorem get?_of_holdsPlayers {players : OrderedDict Text PlayerInfo}
    (h : HoldsPlayers items players) (id : ℕ) :
    (OrderedDict.get? players (Nat.toDigits 10 id)).getD [(idKey, Nat.toDigits 10 id)] =
      playerInfo (id, paramsOf id items) := by
  obtain hnil | hne := Classical.em (paramsOf id items = [])
  · have hnone : OrderedDict.get? players (Nat.toDigits 10 id) = none := by
      rw [OrderedDict.get?_eq_none_iff]
      intro hkey
      obtain ⟨other, heq, hother⟩ := h.keys _ hkey
      obtain rfl : id = other := Text.toDigits_inj heq
      exact hother hnil
    rw [hnone, hnil]
    rfl
  · rw [h.get? id hne]
    rfl

theorem holdsPlayers_player {players : OrderedDict Text PlayerInfo}
    (h : HoldsPlayers items players) {id : ℕ} {param value : Text}
    (hnew : param ∉ (paramsOf id items).map Prod.fst) (hid : param ≠ idKey) :
    HoldsPlayers (items ++ [.player id param value])
      (OrderedDict.set players (Nat.toDigits 10 id)
        (OrderedDict.set (playerInfo (id, paramsOf id items)) param value)) := by
  have hset : OrderedDict.set (playerInfo (id, paramsOf id items)) param value =
      playerInfo (id, paramsOf id (items ++ [.player id param value])) := by
    have hkeys : param ∉ OrderedDict.keys (playerInfo (id, paramsOf id items)) := by
      intro hkey
      obtain heq | hkey := List.mem_cons.mp hkey
      · exact hid heq
      · exact hnew hkey
    rw [OrderedDict.set_of_not_mem hkeys, paramsOf_append]
    simp [playerInfo, paramsOf]
  have hother : ∀ other, other ≠ id →
      paramsOf other (items ++ [.player id param value]) = paramsOf other items := by
    intro other hne
    rw [paramsOf_append]
    simp [paramsOf, hne.symm]
  rw [hset]
  constructor
  · exact OrderedDict.nodup_keys_set h.nodup
  · intro key hkey
    obtain rfl | hkey := OrderedDict.mem_keys_set.mp hkey
    · exact ⟨id, rfl, by simp [paramsOf]⟩
    · obtain ⟨other, rfl, hne⟩ := h.keys key hkey
      exact ⟨other, rfl, by simp [paramsOf_append, hne]⟩
  · intro other hne
    rw [OrderedDict.get?_set]
    obtain rfl | hid := eq_or_ne other id
    · rw [if_pos rfl]
    · rw [if_neg fun heq => hid (Text.toDigits_inj heq).symm, hother other hid]
      rw [hother other hid] at hne
      exact h.get? other hne

theorem holdsPlayers_other {players : OrderedDict Text PlayerInfo} (h : HoldsPlayers items players)
    (hitem : ∀ id, paramsOf id [item] = []) : HoldsPlayers (items ++ [item]) players := by
  have hparams : ∀ id, paramsOf id (items ++ [item]) = paramsOf id items := by
    intro id
    rw [paramsOf_append, hitem, List.append_nil]
  constructor
  · exact h.nodup
  · intro key hkey
    obtain ⟨id, rfl, hne⟩ := h.keys key hkey
    exact ⟨id, rfl, by rwa [hparams]⟩
  · intro id hne
    rw [hparams] at hne ⊢
    exact h.get? id hne

theorem expandParam_pair {players : OrderedDict Text PlayerInfo} (h : HoldsPlayers items players)
    (hdistinct : Distinct (items ++ [item])) :
    ∃ players', expandParam (expanded players (objectivesOf items) (baseOf items)) item.pair =
        .ok (expanded players' (objectivesOf (items ++ [item])) (baseOf (items ++ [item]))) ∧
      HoldsPlayers (items ++ [item]) players' := by
  cases item with
  | base key value =>
    have hkeys := hdistinct.baseKeys
    have hmem : (key, value) ∈ baseOf (items ++ [.base key value]) := by
      simp [baseOf]
    obtain ⟨⟨hobjective, hplayer, hreserved⟩, hplain, _⟩ := hdistinct.base _ hmem
    refine ⟨players, ?_, holdsPlayers_other h fun _ => rfl⟩
    rw [baseOf_append, List.map_append, List.nodup_append] at hkeys
    have hnew : key ∉ (baseOf items).map Prod.fst := fun hkey =>
      hkeys.2.2 key hkey key (by simp [baseOf]) rfl
    rw [objectivesOf_append, baseOf_append]
    have hpair : objectivesOf items ++ objectivesOf [.base key value] = objectivesOf items :=
      List.append_nil _
    rw [hpair]
    apply expandParam_base hplain.2 hobjective hplayer _ _ hnew
    · rintro rfl
      exact hreserved List.mem_cons_self
    · rintro rfl
      exact hreserved (List.mem_cons_of_mem _ List.mem_cons_self)
  | player id param value =>
    have hmem : (param, value) ∈ paramsOf id (items ++ [.player id param value]) := by
      simp [paramsOf]
    obtain ⟨⟨hne, hid, hobj, hstart⟩, hplain, _⟩ := hdistinct.names id _ hmem
    have hparams := hdistinct.params id
    rw [paramsOf_append, List.map_append, List.nodup_append] at hparams
    have hnew : param ∉ (paramsOf id items).map Prod.fst := fun hkey =>
      hparams.2.2 param hkey param (by simp [paramsOf]) rfl
    refine ⟨_, ?_, holdsPlayers_player h hnew hid⟩
    rw [StatusItem.pair, expandParam_player id hne hplain.2 hobj hstart, get?_of_holdsPlayers h id,
      objectivesOf_append, baseOf_append]
    simp [objectivesOf, baseOf]
  | objective name value =>
    have hmem : (name, value) ∈ objectivesOf (items ++ [.objective name value]) := by
      simp [objectivesOf]
    obtain ⟨hne, hplain, _⟩ := hdistinct.objectives _ hmem
    refine ⟨players, ?_, holdsPlayers_other h fun _ => rfl⟩
    rw [StatusItem.pair, expandParam_objective hne hplain.2, objectivesOf_append, baseOf_append]
    simp [objectivesOf, baseOf]

theorem expandParam_items (hdistinct : Distinct items) :
    ∃ players, (items.map StatusItem.pair).foldlM expandParam (expanded [] [] []) =
        .ok (expanded players (objectivesOf items) (baseOf items)) ∧
      HoldsPlayers items players := by
  induction items using List.reverseRecOn with
  | nil =>
    exact ⟨[], rfl, by simp [OrderedDict.keys], by simp [OrderedDict.keys], by simp [paramsOf]⟩
  | append_singleton items item ih =>
    obtain ⟨players, hrun, hholds⟩ := ih hdistinct.left
    obtain ⟨players', hstep, hholds'⟩ := expandParam_pair hholds hdistinct
    refine ⟨players', ?_, hholds'⟩
    rw [List.map_append, List.foldlM_append, hrun]
    simp only [List.map_cons, List.map_nil, List.foldlM_cons, List.foldlM_nil, bind_pure]
    exact hstep

theorem playerId_playerInfo (player : ℕ × List (Text × Text)) :
    playerId (playerInfo player) = .ok (player.1 : ℤ) := by
  simp [playerId, playerInfo, Text.parseInt_toDigits]

theorem sortPlayers_map (players : List (ℕ × List (Text × Text))) :
    sortPlayers (players.map playerInfo) =
      .ok ((players.insertionSort fun a b => a.1 ≤ b.1).map playerInfo) := by
  have hkeyed : (players.map playerInfo).mapM (fun player => do
      let id ← playerId player
      pure (id, player)) =
        (.ok (players.map fun player => ((player.1 : ℤ), playerInfo player)) :
          Except ExpandError _) := by
    induction players with
    | nil => rfl
    | cons player players ih =>
      rw [List.map_cons, List.mapM_cons, ih, playerId_playerInfo]
      rfl
  have hsorted : (players.insertionSort fun a b => a.1 ≤ b.1).map
      (fun player => ((player.1 : ℤ), playerInfo player)) =
        (players.map fun player => ((player.1 : ℤ), playerInfo player)).insertionSort
          fun a b => a.1 ≤ b.1 := by
    apply List.map_insertionSort
    intro a _ b _
    exact Int.ofNat_le.symm
  rw [sortPlayers, hkeyed]
  simp only [bind, Except.bind, ← hsorted, pure, Except.pure]
  rw [List.map_map]
  rfl

theorem exists_eq_map {α β : Type} {P : α → Prop} {f : α → β} {l : List β}
    (h : ∀ y ∈ l, ∃ x, P x ∧ y = f x) :
    ∃ xs : List α, (∀ x ∈ xs, P x) ∧ l = xs.map f := by
  induction l with
  | nil => exact ⟨[], by simp, rfl⟩
  | cons y l ih =>
    obtain ⟨x, hx, rfl⟩ := h y List.mem_cons_self
    obtain ⟨xs, hxs, rfl⟩ := ih fun y hy => h y (List.mem_cons_of_mem _ hy)
    exact ⟨x :: xs, by simpa using ⟨hx, hxs⟩, rfl⟩

theorem Status.eq_of_id_eq (status : Status) {a b : ℕ × List (Text × Text)}
    (ha : a ∈ status.players) (hb : b ∈ status.players) (h : a.1 = b.1) : a = b :=
  List.inj_on_of_nodup_map status.ids ha hb h

theorem exists_player_of_mem {players : OrderedDict Text PlayerInfo}
    (h : HoldsPlayers items players) (hitems : Interleaves status items)
    {entry : Text × PlayerInfo} (hmem : entry ∈ players) :
    ∃ player, player ∈ status.players ∧
      entry = (Nat.toDigits 10 player.1, playerInfo player) := by
  obtain ⟨key, info⟩ := entry
  obtain ⟨id, rfl, hne⟩ := h.keys key (List.mem_map_of_mem hmem)
  have hid : id ∈ status.players.map Prod.fst := by
    by_contra hid
    exact hne (hitems.others id hid)
  obtain ⟨player, hplayer, rfl⟩ := List.mem_map.mp hid
  have hget := OrderedDict.get?_of_mem h.nodup hmem
  rw [h.get? _ hne, hitems.players player hplayer] at hget
  exact ⟨player, hplayer, by rw [← Option.some.inj hget]⟩

theorem toDigits_mem_keys {players : OrderedDict Text PlayerInfo}
    (h : HoldsPlayers items players) (hitems : Interleaves status items)
    {player : ℕ × List (Text × Text)} (hplayer : player ∈ status.players) :
    Nat.toDigits 10 player.1 ∈ OrderedDict.keys players := by
  have hne : paramsOf player.1 items ≠ [] := by
    rw [hitems.players player hplayer]
    exact (status.params player hplayer).1
  by_contra hkey
  have hget := h.get? player.1 hne
  rw [OrderedDict.get?_eq_none_iff.mpr hkey] at hget
  cases hget

/-- In the dictionary are the players of the status, in some order. -/
theorem exists_perm_of_holdsPlayers {players : OrderedDict Text PlayerInfo}
    (h : HoldsPlayers items players) (hitems : Interleaves status items) :
    ∃ met : List (ℕ × List (Text × Text)), met.Perm status.players ∧
      OrderedDict.values players = met.map playerInfo := by
  obtain ⟨met, hmet, hplayers⟩ :=
    exists_eq_map fun entry hmem => exists_player_of_mem h hitems hmem
  have hkeys : (met.map fun player => Nat.toDigits 10 player.1).Nodup := by
    have hnodup := h.nodup
    rw [OrderedDict.keys, hplayers, List.map_map] at hnodup
    exact hnodup
  refine ⟨met, ?_, ?_⟩
  · rw [List.perm_ext_iff_of_nodup (List.Nodup.of_map _ hkeys) (List.Nodup.of_map _ status.ids)]
    intro player
    constructor
    · exact hmet player
    · intro hplayer
      have hkey := toDigits_mem_keys h hitems hplayer
      rw [OrderedDict.keys, hplayers, List.map_map] at hkey
      obtain ⟨other, hother, heq⟩ := List.mem_map.mp hkey
      rwa [← status.eq_of_id_eq (hmet other hother) hplayer (Text.toDigits_inj heq)]
  · rw [OrderedDict.values, hplayers, List.map_map]
    rfl

theorem sortPlayers_of_holdsPlayers {players : OrderedDict Text PlayerInfo}
    (h : HoldsPlayers items players) (hitems : Interleaves status items) :
    sortPlayers (OrderedDict.values players) =
      .ok ((status.players.insertionSort fun a b => a.1 ≤ b.1).map playerInfo) := by
  obtain ⟨met, hperm, hvalues⟩ := exists_perm_of_holdsPlayers h hitems
  have hsorted : (met.insertionSort fun a b => a.1 ≤ b.1) =
      status.players.insertionSort fun a b => a.1 ≤ b.1 := by
    have hsorted : ∀ players : List (ℕ × List (Text × Text)),
        (players.insertionSort fun a b => a.1 ≤ b.1).Pairwise fun a b => a.1 ≤ b.1 :=
      fun players => List.pairwise_insertionSort _ _
    refine List.Perm.eq_of_pairwise ?_ (hsorted _) (hsorted _) ?_
    · intro a b ha hb hab hba
      exact status.eq_of_id_eq (hperm.mem_iff.mp ((List.mem_insertionSort _).mp ha))
        ((List.mem_insertionSort _).mp hb) (le_antisymm hab hba)
    · exact (List.perm_insertionSort _ _).trans (hperm.trans (List.perm_insertionSort _ _).symm)
  rw [hvalues, sortPlayers_map, hsorted]

theorem not_objectiveForm_of_not_mem {key : Text} (h : '_' ∉ key) : ¬ ObjectiveForm key := by
  rintro ⟨name, _, rfl⟩
  exact h (by simp)

theorem not_playerForm_of_not_mem {key : Text} (h : '_' ∉ key) : ¬ PlayerForm key := by
  rintro ⟨param, id, _, _, _, rfl⟩
  exact h (by simp)

theorem isPlain_append {first rest : Text} (hfirst : IsPlain first) (hrest : IsPlain rest) :
    IsPlain (first ++ rest) := by
  constructor
  · rw [List.mem_append]
    exact not_or.mpr ⟨hfirst.1, hrest.1⟩
  · rw [List.mem_append]
    exact not_or.mpr ⟨hfirst.2, hrest.2⟩

theorem isPlain_toDigits (id : ℕ) : IsPlain ('_' :: Nat.toDigits 10 id) := by
  have hdigits : ∀ c ∈ Nat.toDigits 10 id, c.isDigit = true := fun c hc =>
    Text.isDigit_of_mem_toDigits hc
  constructor
  · intro hmem
    obtain heq | hmem := List.mem_cons.mp hmem
    · cases heq
    · exact absurd (hdigits _ hmem) (by decide)
  · intro hmem
    obtain heq | hmem := List.mem_cons.mp hmem
    · cases heq
    · exact absurd (hdigits _ hmem) (by decide)

theorem isPlain_pair (hdistinct : Distinct items) (hitem : item ∈ items) :
    IsPlain item.pair.1 ∧ IsPlain item.pair.2 := by
  cases item with
  | base key value =>
    exact (hdistinct.base (key, value) (List.mem_filterMap.mpr ⟨_, hitem, rfl⟩)).2
  | player id param value =>
    have hplain := (hdistinct.names id (param, value)
      (List.mem_filterMap.mpr ⟨_, hitem, by simp⟩)).2
    exact ⟨isPlain_append hplain.1 (isPlain_toDigits id), hplain.2⟩
  | objective name value =>
    have hplain := (hdistinct.objectives (name, value)
      (List.mem_filterMap.mpr ⟨_, hitem, rfl⟩)).2
    exact ⟨isPlain_append (by decide) hplain.1, hplain.2⟩

/-- The payload splits into the pairs of the items and the two that end it. -/
theorem parseStatusPayload_encodeStatus (hdistinct : Distinct items)
    {queryidValue finalValue : Text} (hqueryid : IsPlain queryidValue)
    (hfinal : IsPlain finalValue) :
    parseStatusPayload (encodeStatus items queryidValue finalValue) =
      items.map StatusItem.pair ++ [(queryid, queryidValue), (final, finalValue)] := by
  apply parseStatusPayload_payloadOf
  intro pair hpair
  obtain hpair | hpair := List.mem_append.mp hpair
  · obtain ⟨item, hitem, rfl⟩ := List.mem_map.mp hpair
    have hplain := isPlain_pair hdistinct hitem
    exact ⟨hplain.1.1, hplain.2.1⟩
  · simp only [List.mem_cons, List.not_mem_nil, or_false] at hpair
    have hkeys : '\\' ∉ queryid ∧ '\\' ∉ final := by decide
    obtain rfl | rfl := hpair
    · exact ⟨hkeys.1, hqueryid.1⟩
    · exact ⟨hkeys.2, hfinal.1⟩

/-- The two pairs that end the payload are base parameters. -/
theorem expandParam_end (hdistinct : Distinct items) (players : OrderedDict Text PlayerInfo)
    (queryidValue finalValue : Text) :
    [(queryid, queryidValue), (final, finalValue)].foldlM expandParam
        (expanded players (objectivesOf items) (baseOf items)) =
      .ok (expanded players (objectivesOf items)
        (baseOf items ++ [(queryid, queryidValue)] ++ [(final, finalValue)])) := by
  have hreserved : ∀ key ∈ reservedKeys, key ∉ (baseOf items).map Prod.fst := by
    intro key hkey hmem
    obtain ⟨param, hparam, rfl⟩ := List.mem_map.mp hmem
    exact (hdistinct.base param hparam).1.2.2 hkey
  have hqueryidStep : expandParam (expanded players (objectivesOf items) (baseOf items))
      (queryid, queryidValue) = .ok (expanded players (objectivesOf items)
        (baseOf items ++ [(queryid, queryidValue)])) :=
    expandParam_base (by decide) (not_objectiveForm_of_not_mem (by decide))
      (not_playerForm_of_not_mem (by decide)) (by decide) (by decide)
      (hreserved queryid (by decide))
  have hfinalStep : expandParam (expanded players (objectivesOf items)
      (baseOf items ++ [(queryid, queryidValue)])) (final, finalValue) =
        .ok (expanded players (objectivesOf items)
          (baseOf items ++ [(queryid, queryidValue)] ++ [(final, finalValue)])) := by
    apply expandParam_base (by decide) (not_objectiveForm_of_not_mem (by decide))
      (not_playerForm_of_not_mem (by decide)) (by decide) (by decide)
    rw [List.map_append, List.mem_append, not_or]
    have hne : final ∉ [queryid] := by decide
    exact ⟨hreserved final (by decide), hne⟩
  simp only [bind, Except.bind, List.foldlM_cons, List.foldlM_nil, hqueryidStep, hfinalStep, pure,
    Except.pure]

theorem expandStatusPayload_encodeStatus (hitems : Interleaves status items)
    {queryidValue finalValue : Text} (hqueryid : IsPlain queryidValue)
    (hfinal : IsPlain finalValue) :
    expandStatusPayload (encodeStatus items queryidValue finalValue) =
      .ok (status.info queryidValue finalValue) := by
  have hdistinct := hitems.distinct
  obtain ⟨players, hrun, hholds⟩ := expandParam_items hdistinct
  rw [expandStatusPayload, parseStatusPayload_encodeStatus hdistinct hqueryid hfinal,
    List.foldlM_append]
  change ((items.map StatusItem.pair).foldlM expandParam (expanded [] [] []) >>= _) >>= _ = _
  rw [hrun]
  simp only [bind, Except.bind, expandParam_end hdistinct, pure, Except.pure]
  simp only [expanded, OrderedDict.get?, if_true, sortPlayers_of_holdsPlayers hholds hitems]
  simp [OrderedDict.set, Status.info, hitems.base, hitems.objectives]

def smallGame : Status where
  base := [("hostname".toList, "SEF".toList)]
  players := [(10, [("player".toList, "mi".toList), ("score".toList, ['5'])]),
    (2, [("player".toList, "tony".toList)])]
  objectives := [("Rescue_All".toList, ['0'])]
  baseKeys := by decide
  baseForms := by
    intro param hparam
    obtain rfl := List.mem_singleton.mp hparam
    exact ⟨not_objectiveForm_of_not_mem (by decide), not_playerForm_of_not_mem (by decide),
      by decide⟩
  ids := by decide
  params := by decide
  names := by decide
  objectiveNames := by decide
  plainBase := by decide
  plainPlayers := by decide
  plainObjectives := by decide

def smallGameItems : List StatusItem :=
  [.player 10 "player".toList "mi".toList, .player 2 "player".toList "tony".toList,
    .base "hostname".toList "SEF".toList, .player 10 "score".toList ['5'],
    .objective "Rescue_All".toList ['0']]

theorem interleaves_smallGame : Interleaves smallGame smallGameItems where
  base := by decide
  objectives := by decide
  players := by decide
  others id hid := by
    simp only [smallGame, List.map_cons, List.map_nil, List.mem_cons, List.not_mem_nil, or_false,
      not_or] at hid
    have h10 : (10 : ℕ) ≠ id := fun heq => hid.1 heq.symm
    have h2 : (2 : ℕ) ≠ id := fun heq => hid.2 heq.symm
    simp [paramsOf, smallGameItems, h10, h2]

theorem expandStatusPayload_smallGame :
    expandStatusPayload (encodeStatus smallGameItems ['1'] []) = .ok (smallGame.info ['1'] []) :=
  expandStatusPayload_encodeStatus interleaves_smallGame (by decide) (by decide)

end ServerStatusTask

end Swat4Stats
