import Swat4Stats.GroupedTotals

/-!
# Wins, losses and draws

The games of a profile that its rows count as won, lost or drawn. A game has one outcome, but a
profile may have rows for both teams in it, and then the game is counted as won and as lost.
-/

namespace Swat4Stats

set_option autoImplicit false

namespace PlayerQuerySet

def isWin (row : PlayerRow) : Bool := qSwatVictories row || qSusVictories row

def isLoss (row : PlayerRow) : Bool := qSwatLosses row || qSusLosses row

/-- The games that a count with that condition is about. -/
def countedGames (condition : PlayerRow → Bool) (rows : List PlayerRow) : List GameId :=
  (rows.filterMap (caseWhen condition fun row => row.game.pk)).dedup

/-- Each game is counted in at most one of wins, losses and draws. -/
structure CountsOnce (rows : List PlayerRow) (items : Items) : Prop where
  winsLosses : (countedGames isWin rows).Disjoint (countedGames isLoss rows)
  winsDraws : (countedGames isWin rows).Disjoint (countedGames qDrawGames rows)
  lossesDraws : (countedGames isLoss rows).Disjoint (countedGames qDrawGames rows)
  bound : (valueOf items .wins).getD 0 + (valueOf items .losses).getD 0 +
    (valueOf items .draws).getD 0 ≤ (valueOf items .games).getD 0

/-- Some game that one of the teams has won has rows of both. -/
def OnBothTeams (rows : List PlayerRow) : Prop :=
  ∃ x ∈ rows, ∃ y ∈ rows, x.game.pk = y.game.pk ∧
    x.player.team = some .swat ∧ y.player.team = some .suspects ∧
    ∃ outcome ∈ GameOutcome.swatVictories ++ GameOutcome.susVictories,
      x.game.outcome = some outcome

section Counts

variable {rows : List PlayerRow} {condition : PlayerRow → Bool} {game : GameId}

theorem mem_countedGames : game ∈ countedGames condition rows ↔
    ∃ row ∈ rows, condition row = true ∧ row.game.pk = game := by
  simp only [countedGames, List.mem_dedup, List.mem_filterMap]
  constructor
  · rintro ⟨row, hrow, hgame⟩
    exact ⟨row, hrow, eq_of_mem_caseWhen hgame⟩
  · rintro ⟨row, hrow, hcondition, rfl⟩
    exact ⟨row, hrow, if_pos hcondition⟩

theorem countGames_eq (condition : PlayerRow → Bool) (rows : List PlayerRow) :
    (countGames condition rows).getD 0 = ((countedGames condition rows).length : ℚ) := rfl

theorem mem_teamWithOutcome {team : Team} {outcomes : List GameOutcome} {row : PlayerRow} :
    teamWithOutcome team outcomes row = true ↔
      row.player.team = some team ∧ ∃ outcome ∈ outcomes, row.game.outcome = some outcome := by
  rw [teamWithOutcome, decide_eq_true_eq]

theorem not_qDrawGames {row : PlayerRow} (h : isWin row = true ∨ isLoss row = true) :
    ¬ row.game.outcome = some .tie := by
  have hdecisive : ∃ outcome ∈ GameOutcome.swatVictories ++ GameOutcome.susVictories,
      row.game.outcome = some outcome := by
    simp only [isWin, isLoss, Bool.or_eq_true, qSwatVictories, qSusVictories, qSwatLosses,
      qSusLosses, mem_teamWithOutcome] at h
    simp only [List.mem_append]
    obtain (⟨_, o, ho, hrow⟩ | ⟨_, o, ho, hrow⟩) | ⟨_, o, ho, hrow⟩ | ⟨_, o, ho, hrow⟩ := h
    · exact ⟨o, .inl ho, hrow⟩
    · exact ⟨o, .inr ho, hrow⟩
    · exact ⟨o, .inr ho, hrow⟩
    · exact ⟨o, .inl ho, hrow⟩
  obtain ⟨outcome, houtcome, hrow⟩ := hdecisive
  rw [hrow]
  rintro ⟨⟩
  revert houtcome
  decide

theorem isWin_iff {row : PlayerRow} : isWin row = true ↔
    (row.player.team = some .swat ∧
      ∃ outcome ∈ GameOutcome.swatVictories, row.game.outcome = some outcome) ∨
    (row.player.team = some .suspects ∧
      ∃ outcome ∈ GameOutcome.susVictories, row.game.outcome = some outcome) := by
  simp only [isWin, Bool.or_eq_true, qSwatVictories, qSusVictories, mem_teamWithOutcome]

theorem isLoss_iff {row : PlayerRow} : isLoss row = true ↔
    (row.player.team = some .swat ∧
      ∃ outcome ∈ GameOutcome.susVictories, row.game.outcome = some outcome) ∨
    (row.player.team = some .suspects ∧
      ∃ outcome ∈ GameOutcome.swatVictories, row.game.outcome = some outcome) := by
  simp only [isLoss, Bool.or_eq_true, qSwatLosses, qSusLosses, mem_teamWithOutcome]

/-- Only one of the teams can have won a game. -/
theorem not_both_victories {row : PlayerRow}
    (hswat : ∃ outcome ∈ GameOutcome.swatVictories, row.game.outcome = some outcome) :
    ¬ ∃ outcome ∈ GameOutcome.susVictories, row.game.outcome = some outcome := by
  rintro ⟨outcome, hsus, hrow⟩
  obtain ⟨other, hswat, hother⟩ := hswat
  obtain rfl : outcome = other := Option.some_inj.mp (hrow.symm.trans hother)
  revert hsus hswat
  cases outcome <;> decide

theorem disjoint_wins_losses_iff
    (hgame : ∀ x ∈ rows, ∀ y ∈ rows, x.game.pk = y.game.pk → x.game = y.game) :
    (countedGames isWin rows).Disjoint (countedGames isLoss rows) ↔ ¬ OnBothTeams rows := by
  constructor
  · rintro hdisjoint ⟨x, hx, y, hy, hpk, hswat, hsuspects, outcome, houtcome, hxo⟩
    have hyo : y.game.outcome = some outcome := by
      rw [← hgame x hx y hy hpk]
      exact hxo
    obtain hvictory | hvictory := List.mem_append.mp houtcome
    · have hwin : isWin x = true := isWin_iff.mpr (.inl ⟨hswat, outcome, hvictory, hxo⟩)
      have hloss : isLoss y = true := isLoss_iff.mpr (.inr ⟨hsuspects, outcome, hvictory, hyo⟩)
      exact hdisjoint (mem_countedGames.mpr ⟨x, hx, hwin, hpk⟩)
        (mem_countedGames.mpr ⟨y, hy, hloss, rfl⟩)
    · have hwin : isWin y = true := isWin_iff.mpr (.inr ⟨hsuspects, outcome, hvictory, hyo⟩)
      have hloss : isLoss x = true := isLoss_iff.mpr (.inl ⟨hswat, outcome, hvictory, hxo⟩)
      exact hdisjoint (mem_countedGames.mpr ⟨y, hy, hwin, rfl⟩)
        (mem_countedGames.mpr ⟨x, hx, hloss, hpk⟩)
  · intro hboth game hwins hlosses
    obtain ⟨x, hx, hwin, rfl⟩ := mem_countedGames.mp hwins
    obtain ⟨y, hy, hloss, hpk⟩ := mem_countedGames.mp hlosses
    have hsame := hgame y hy x hx hpk
    rw [isWin_iff] at hwin
    rw [isLoss_iff, hsame] at hloss
    apply hboth
    obtain ⟨hx', hvictory⟩ | ⟨hx', hvictory⟩ := hwin
    · obtain ⟨_, hother⟩ | ⟨hy', _⟩ := hloss
      · exact absurd hother (not_both_victories hvictory)
      · obtain ⟨outcome, houtcome, hxo⟩ := hvictory
        exact ⟨x, hx, y, hy, hpk.symm, hx', hy', outcome, List.mem_append_left _ houtcome, hxo⟩
    · obtain ⟨hy', _⟩ | ⟨_, hother⟩ := hloss
      · obtain ⟨outcome, houtcome, hxo⟩ := hvictory
        exact ⟨y, hy, x, hx, hpk, hy', hx', outcome, List.mem_append_right _ houtcome,
          hsame ▸ hxo⟩
      · exact absurd hvictory (not_both_victories hother)

theorem disjoint_draws {p : PlayerRow → Bool}
    (hp : ∀ row, p row = true → isWin row = true ∨ isLoss row = true)
    (hgame : ∀ x ∈ rows, ∀ y ∈ rows, x.game.pk = y.game.pk → x.game = y.game) :
    (countedGames p rows).Disjoint (countedGames qDrawGames rows) := by
  intro game hcounted hdraws
  obtain ⟨x, hx, hpx, rfl⟩ := mem_countedGames.mp hcounted
  obtain ⟨y, hy, hdraw, hpk⟩ := mem_countedGames.mp hdraws
  rw [qDrawGames, decide_eq_true_eq, hgame y hy x hx hpk] at hdraw
  exact not_qDrawGames (hp x hpx) hdraw

/-- Disjoint sets of games, all of them among those that are counted as games. -/
theorem length_countedGames_le (hversus : ∀ row ∈ rows, qVersusModes row = true)
    (hwinsLosses : (countedGames isWin rows).Disjoint (countedGames isLoss rows))
    (hwinsDraws : (countedGames isWin rows).Disjoint (countedGames qDrawGames rows))
    (hlossesDraws : (countedGames isLoss rows).Disjoint (countedGames qDrawGames rows)) :
    (countedGames isWin rows).length + (countedGames isLoss rows).length +
      (countedGames qDrawGames rows).length ≤ (countedGames qVersusModes rows).length := by
  have hnodup : ∀ p : PlayerRow → Bool, (countedGames p rows).Nodup := fun p => List.nodup_dedup _
  have hsub : ∀ p : PlayerRow → Bool, countedGames p rows ⊆ countedGames qVersusModes rows := by
    intro p game hgame
    obtain ⟨row, hrow, _, hpk⟩ := mem_countedGames.mp hgame
    exact mem_countedGames.mpr ⟨row, hrow, hversus row hrow, hpk⟩
  have hdisjoint : (countedGames isWin rows ++ countedGames isLoss rows).Disjoint
      (countedGames qDrawGames rows) :=
    List.disjoint_append_left.mpr ⟨hwinsDraws, hlossesDraws⟩
  have hall : (countedGames isWin rows ++ countedGames isLoss rows ++
      countedGames qDrawGames rows).Nodup :=
    (((hnodup _).append (hnodup _) hwinsLosses).append (hnodup _) hdisjoint)
  have hle := (List.subperm_of_subset hall (List.append_subset.mpr
    ⟨List.append_subset.mpr ⟨hsub _, hsub _⟩, hsub _⟩)).length_le
  rw [List.length_append, List.length_append] at hle
  exact hle

end Counts

section Dictionaries

variable {rows : List PlayerRow} {items : Items}

/-- The counts under their names. -/
structure CountsGames (rows : List PlayerRow) (items : Items) : Prop where
  wins : valueOf items .wins = countGames isWin rows
  losses : valueOf items .losses = countGames isLoss rows
  draws : valueOf items .draws = countGames qDrawGames rows
  games : valueOf items .games = countGames qVersusModes rows

theorem countsOnce_iff (hitems : CountsGames rows items)
    (hversus : ∀ row ∈ rows, qVersusModes row = true)
    (hgame : ∀ x ∈ rows, ∀ y ∈ rows, x.game.pk = y.game.pk → x.game = y.game) :
    CountsOnce rows items ↔ ¬ OnBothTeams rows := by
  constructor
  · intro hcounts
    exact (disjoint_wins_losses_iff hgame).mp hcounts.winsLosses
  · intro hboth
    have hwinsLosses := (disjoint_wins_losses_iff hgame).mpr hboth
    have hwinsDraws := disjoint_draws (p := isWin) (fun _ => .inl) hgame
    have hlossesDraws := disjoint_draws (p := isLoss) (fun _ => .inr) hgame
    refine ⟨hwinsLosses, hwinsDraws, hlossesDraws, ?_⟩
    rw [hitems.wins, hitems.losses, hitems.draws, hitems.games]
    simp only [countGames_eq]
    exact_mod_cast length_countedGames_le hversus hwinsLosses hwinsDraws hlossesDraws

theorem countsGames_aggregateStats {aggregates : Aggregates PlayerRow}
    (h : ∀ category ∈ [StatCategory.wins, .losses, .draws, .games],
      aggregates.lookup category = playerAggregates.lookup category) (rows : List PlayerRow) :
    CountsGames rows (aggregateStats aggregates rows) where
  wins := valueOf_aggregateStats (h _ (by decide)) rows
  losses := valueOf_aggregateStats (h _ (by decide)) rows
  draws := valueOf_aggregateStats (h _ (by decide)) rows
  games := valueOf_aggregateStats (h _ (by decide)) rows

theorem countsGames_aggregatePlayerStats (db : Database)
    (hversus : ∀ row ∈ rows, qVersusModes row = true) :
    CountsGames rows (aggregatePlayerStats db rows) := by
  have hall : rows.filter qVersusModes = rows := List.filter_eq_self.mpr hversus
  constructor
  · exact (valueOf_aggregatePlayerStats rfl db rows).trans (congrArg (countGames isWin) hall)
  · exact (valueOf_aggregatePlayerStats rfl db rows).trans (congrArg (countGames isLoss) hall)
  · exact (valueOf_aggregatePlayerStats rfl db rows).trans (congrArg (countGames qDrawGames) hall)
  · exact (valueOf_aggregatePlayerStats rfl db rows).trans
      (congrArg (countGames qVersusModes) hall)

/-- Each dictionary of a grouped query counts the games of its group once. -/
def GroupsCountOnce {γ : Type} [DecidableEq γ] (groupBy : PlayerRow → γ) (rows : List PlayerRow)
    (groups : List (γ × Items)) : Prop :=
  ∀ entry ∈ groups, CountsOnce (rows.filter fun row => groupBy row = entry.1) entry.2

theorem groupsCountOnce {γ : Type} [DecidableEq γ] {groupBy : PlayerRow → γ}
    {aggregates : Aggregates PlayerRow}
    (haggregates : ∀ category ∈ [StatCategory.wins, .losses, .draws, .games],
      aggregates.lookup category = playerAggregates.lookup category)
    (hversus : ∀ row ∈ rows, qVersusModes row = true)
    (hgame : ∀ x ∈ rows, ∀ y ∈ rows, x.game.pk = y.game.pk → x.game = y.game)
    (hboth : ¬ OnBothTeams rows) :
    GroupsCountOnce groupBy rows (aggregateStatsBy aggregates groupBy rows) := by
  intro entry hentry
  obtain ⟨k, _, rfl⟩ := List.mem_map.mp hentry
  have hsub : ∀ row ∈ rows.filter fun row => groupBy row = k, row ∈ rows := fun row hrow =>
    List.mem_of_mem_filter hrow
  refine (countsOnce_iff (countsGames_aggregateStats haggregates _) ?_ ?_).mpr ?_
  · exact fun row hrow => hversus row (hsub row hrow)
  · exact fun x hx y hy => hgame x (hsub x hx) y (hsub y hy)
  · rintro ⟨x, hx, y, hy, hrest⟩
    exact hboth ⟨x, hsub x hx, y, hsub y hy, hrest⟩

end Dictionaries

/-- Any rows of a profile in versus games. -/
def versusRows (db : Database) (profile : ProfileId) (selected : PlayerRow → Bool) :
    List PlayerRow :=
  (forProfile db profile (all db)).filter fun row => selected row && qVersusModes row

theorem games_countOnce_iff (db : Database) (profile : ProfileId) (selected : PlayerRow → Bool) :
    (CountsOnce (versusRows db profile selected)
        (aggregatePlayerStats db (versusRows db profile selected)) ∧
      GroupsCountOnce (fun row => row.game.map) (versusRows db profile selected)
        (aggregateStatsByMap (versusRows db profile selected)) ∧
      GroupsCountOnce (fun row => row.game.gametype) (versusRows db profile selected)
        (aggregateStatsByGametype (versusRows db profile selected))) ↔
      ¬ OnBothTeams (versusRows db profile selected) := by
  have hversus : ∀ row ∈ versusRows db profile selected, qVersusModes row = true := by
    intro row hrow
    exact (Bool.and_eq_true_iff.mp (List.mem_filter.mp hrow).2).2
  have hall : ∀ row ∈ versusRows db profile selected, row ∈ all db := fun row hrow =>
    List.mem_of_mem_filter (List.mem_of_mem_filter hrow)
  have hgame : ∀ x ∈ versusRows db profile selected, ∀ y ∈ versusRows db profile selected,
      x.game.pk = y.game.pk → x.game = y.game := fun x hx y hy =>
    game_eq_of_pk_eq (hall x hx) (hall y hy)
  have hlookup : ∀ category ∈ [StatCategory.wins, .losses, .draws, .games],
      mapAggregates.lookup category = playerAggregates.lookup category ∧
        gametypeAggregates.lookup category = playerAggregates.lookup category := by
    intro category hcategory
    simp only [List.mem_cons, List.not_mem_nil, or_false] at hcategory
    obtain rfl | rfl | rfl | rfl := hcategory <;> exact ⟨rfl, rfl⟩
  have htotal := countsOnce_iff (countsGames_aggregatePlayerStats db hversus) hversus hgame
  constructor
  · rintro ⟨honce, _, _⟩
    exact htotal.mp honce
  · intro hboth
    refine ⟨htotal.mpr hboth, ?_, ?_⟩
    · exact groupsCountOnce (fun category h => (hlookup category h).1) hversus hgame hboth
    · exact groupsCountOnce (fun category h => (hlookup category h).2) hversus hgame hboth

def switchedTeams : Database :=
  { Database.empty with
    games := ⟨[{
      pk := 1, server := 1, tag := none, dateFinished := 0, gametype := .barricadedSuspects,
      gametypeLegacy := 0, map := 1, mapname := 0, outcome := some .swatBs, outcomeLegacy := 1,
      time := 600, playerNum := 16, scoreSwat := 0, scoreSus := 0, victSwat := 0, victSus := 0,
      rdBombsDefused := 0, rdBombsTotal := 0, coopScore := 0, coopRank := none }], by decide⟩
    aliases := ⟨[⟨1, "Swat".toList, 1, none, 0, 0⟩], by decide⟩
    players := ⟨[{ pk := 1, game := 1, aliasId := 1, loadout := 1, ip := 0, team := some .swat },
      { pk := 2, game := 1, aliasId := 1, loadout := 1, ip := 0, team := some .suspects }],
      by decide⟩ }

theorem switchedTeams_countedTwice :
    ¬ CountsOnce (versusRows switchedTeams 1 fun _ => true)
      (aggregatePlayerStats switchedTeams (versusRows switchedTeams 1 fun _ => true)) := by
  intro honce
  have hbound := honce.bound
  revert hbound
  decide +kernel

end PlayerQuerySet

end Swat4Stats
