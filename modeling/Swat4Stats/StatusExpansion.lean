import Swat4Stats.StatusReassembly

/-!
# The status as a dictionary

`_expand_status_payload` sorts the pairs of a payload by the form of their keys: objectives into a
list, the parameters of a player into a dictionary of their own, and all others under their keys.
The texts are Latin-1, so `\d` is an ASCII digit, and no key of a datagram has as many digits as
`int` refuses.
-/

namespace Swat4Stats

set_option autoImplicit false

namespace ServerStatusTask

abbrev PlayerInfo := OrderedDict Text Text

structure ObjectiveInfo where
  name : Text
  status : Text
  deriving DecidableEq, Repr

/-- What a key of the result holds. The players are a dictionary at first and a list at last. -/
inductive InfoValue where
  | text (value : Text)
  | players (players : OrderedDict Text PlayerInfo)
  | objectives (objectives : List ObjectiveInfo)
  | playerList (players : List PlayerInfo)
  deriving DecidableEq, Repr

abbrev ServerInfo := OrderedDict Text InfoValue

inductive ExpandError where
  | attributeError
  | keyError
  | valueError
  deriving DecidableEq, Repr

def playersKey : Text := "players".toList

def objectivesKey : Text := "objectives".toList

def idKey : Text := "id".toList

/-- `^obj_(?P<name>.+)$` -/
def objPattern : Regex :=
  .seq (.text "obj_".toList) (.seq (.group "name" (.plus (.set (· ≠ '\n')))) .endOfText)

/-- `(?P<param>.+)_(?P<id>\d+)$` -/
def playerPattern : Regex :=
  .seq (.group "param" (.plus (.set (· ≠ '\n'))))
    (.seq (.text ['_']) (.seq (.group "id" (.plus (.set Char.isDigit))) .endOfText))

def matchGroup (matched : MatchState) (name : String) : Text :=
  (matched.groups.lookup name).getD []

/-- A parameter named `objectives` has replaced the list by a text, which has no `append`. -/
def appendObjective (result : ServerInfo) (objective : ObjectiveInfo) :
    Except ExpandError ServerInfo :=
  match OrderedDict.get? result objectivesKey with
  | some (.objectives objectives) =>
    .ok (OrderedDict.set result objectivesKey (.objectives (objectives ++ [objective])))
  | _ => .error .attributeError

def setPlayerParam (result : ServerInfo) (playerId param value : Text) :
    Except ExpandError ServerInfo :=
  match OrderedDict.get? result playersKey with
  | some (.players players) =>
    let player := (OrderedDict.get? players playerId).getD [(idKey, playerId)]
    .ok (OrderedDict.set result playersKey
      (.players (OrderedDict.set players playerId (OrderedDict.set player param value))))
  | _ => .error .attributeError

def expandParam (result : ServerInfo) (param : Text × Text) : Except ExpandError ServerInfo :=
  match objPattern.matchAt param.1 with
  | some objMatch => appendObjective result ⟨matchGroup objMatch "name", param.2⟩
  | none =>
    match playerPattern.matchAt param.1 with
    | some playerMatch =>
      setPlayerParam result (matchGroup playerMatch "id") (matchGroup playerMatch "param") param.2
    | none => .ok (OrderedDict.set result param.1 (.text param.2))

/-- A parameter named `id` replaces the id that the player is sorted by. -/
def playerId (player : PlayerInfo) : Except ExpandError ℤ :=
  match OrderedDict.get? player idKey with
  | none => .error .keyError
  | some id =>
    match Text.parseInt id with
    | none => .error .valueError
    | some id => .ok id

def sortPlayers (players : List PlayerInfo) : Except ExpandError (List PlayerInfo) := do
  let keyed ← players.mapM fun player => do
    let id ← playerId player
    pure (id, player)
  pure ((keyed.insertionSort fun a b => a.1 ≤ b.1).map Prod.snd)

def expandStatusPayload (data : Text) : Except ExpandError ServerInfo := do
  let result ← (parseStatusPayload data).foldlM expandParam
    [(playersKey, .players []), (objectivesKey, .objectives [])]
  match OrderedDict.get? result playersKey with
  | some (.players players) => do
    let sorted ← sortPlayers (OrderedDict.values players)
    pure (OrderedDict.set result playersKey (.playerList sorted))
  | _ => .error .attributeError

def ObjectiveForm (key : Text) : Prop := ∃ name, name ≠ [] ∧ key = "obj_".toList ++ name

def PlayerForm (key : Text) : Prop :=
  ∃ param id, param ≠ [] ∧ id ≠ [] ∧ (∀ c ∈ id, c.isDigit = true) ∧ key = param ++ '_' :: id

theorem objPattern_objective {name : Text} (hne : name ≠ []) (hline : '\n' ∉ name) :
    objPattern.matchAt ("obj_".toList ++ name) = some ⟨[], [("name", name)]⟩ := by
  have hall : ∀ c ∈ name, decide (c ≠ '\n') = true := fun c hc =>
    decide_eq_true fun heq => hline (heq ▸ hc)
  rw [Regex.matchAt, objPattern]
  apply Regex.head?_seq (Regex.head?_text_append ..)
  exact Regex.head?_group_plus_set_endOfText "name" [] hne hall

theorem objPattern_eq_none {key : Text} (hform : ¬ ObjectiveForm key) :
    objPattern.matchAt key = none := by
  have hresults : objPattern.results { rest := key } = [] := by
    rw [objPattern]
    by_contra hresults
    have htext : (Regex.text "obj_".toList).results { rest := key } ≠ [] := fun hnil =>
      hresults (Regex.results_seq_of_nil hnil)
    obtain ⟨name, rfl⟩ := Regex.prefix_of_results_text htext
    obtain rfl | hne := eq_or_ne name []
    · exact hresults (by decide)
    · exact hform ⟨name, hne, rfl⟩
  rw [Regex.matchAt, hresults]
  rfl

/-- The id has no underscore in it, so the parameter ends at the last one. -/
theorem playerPattern_player {param id : Text} (hne : param ≠ []) (hline : '\n' ∉ param)
    (hid : id ≠ []) (hdigits : ∀ c ∈ id, c.isDigit = true) :
    playerPattern.matchAt (param ++ '_' :: id) = some ⟨[], [("id", id), ("param", param)]⟩ := by
  obtain ⟨c, u, rfl⟩ := List.exists_cons_of_ne_nil hne
  have hall : ∀ d ∈ c :: (u ++ '_' :: id), decide (d ≠ '\n') = true := by
    intro d hd
    rw [decide_eq_true_eq]
    rintro rfl
    rw [← List.cons_append] at hd
    obtain hd | hd := List.mem_append.mp hd
    · exact hline hd
    · obtain hd | hd := List.mem_cons.mp hd
      · cases hd
      · exact absurd (hdigits _ hd) (by decide)
  rw [Regex.matchAt, playerPattern]
  apply Regex.head?_seq_group_plus_set "param" [] hall
  · intro tail htail htailNe groups
    apply Regex.results_seq_of_nil
    by_contra hresults
    obtain ⟨rest, rfl⟩ := Regex.prefix_of_results_text hresults
    obtain heq | hsuffix := List.suffix_cons_iff.mp htail
    · exact htailNe heq
    · have hunderscore : '_' ∈ id := hsuffix.subset (by simp)
      exact absurd (hdigits _ hunderscore) (by decide)
  · apply Regex.head?_seq (Regex.head?_text_append ['_'] id _)
    exact Regex.head?_group_plus_set_endOfText "id" _ hid hdigits

theorem playerPattern_eq_none {key : Text} (hline : '\n' ∉ key) (hform : ¬ PlayerForm key) :
    playerPattern.matchAt key = none := by
  have hresults : playerPattern.results { rest := key } = [] := by
    cases key with
    | nil => rfl
    | cons c part =>
      rw [playerPattern]
      apply Regex.results_seq_group_plus_set_of_nil
      · intro d hd
        exact decide_eq_true fun heq => hline (heq ▸ hd)
      · intro tail htail groups
        by_contra hresults
        have htext : (Regex.text ['_']).results ⟨tail, groups⟩ ≠ [] := fun hnil =>
          hresults (Regex.results_seq_of_nil hnil)
        obtain ⟨id, rfl⟩ := Regex.prefix_of_results_text htext
        rw [Regex.results, Regex.results_text_append, List.flatMap_singleton] at hresults
        obtain ⟨before, hbefore⟩ := htail
        have hlineId : '\n' ∉ id := by
          intro hmem
          apply hline
          rw [← hbefore]
          simp [hmem]
        obtain ⟨hid, hdigits⟩ := Regex.forall_of_results_group_plus_set hlineId hresults
        exact hform ⟨c :: before, id, by simp, hid, hdigits, by simp [← hbefore]⟩
  rw [Regex.matchAt, hresults]
  rfl

end ServerStatusTask

end Swat4Stats
