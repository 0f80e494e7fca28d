import Mathlib.Data.Int.Notation
import Mathlib.Data.Nat.Notation

/-!
# Entities

The enumerations of the tracker, in the order of their integer codes wherever the schema has
codes for them: the legacy code of a value is then its index. `none` among the outcomes and the
co-op statuses of the schema is the absent value, so their codes start at one.
-/

namespace Swat4Stats

set_option autoImplicit false

inductive Team where
  | swat | suspects
  deriving DecidableEq, Repr

/-- `teams_reversed`. -/
def Team.legacy (team : Team) : ℤ := team.ctorIdx

inductive GameType where
  | barricadedSuspects | vipEscort | rapidDeployment | smashAndGrab | coOp | coOpQmm
  deriving DecidableEq, Repr

namespace GameType

/-- `gametypes_reversed`; the codes are not in the order of the names. -/
def legacy : GameType → ℤ
  | barricadedSuspects => 0
  | vipEscort => 1
  | rapidDeployment => 2
  | coOp => 3
  | smashAndGrab => 4
  | coOpQmm => 5

def versusModes : List GameType :=
  [barricadedSuspects, rapidDeployment, vipEscort, smashAndGrab]

def coopModes : List GameType := [coOp, coOpQmm]

def isCoop (gametype : GameType) : Bool := gametype ∈ coopModes

end GameType

inductive CoopStatus where
  | ready | healthy | injured | incapacitated
  deriving DecidableEq, Repr

/-- `coop_status_reversed`, where no status has the code zero. -/
def CoopStatus.legacy : Option CoopStatus → ℤ
  | none => 0
  | some status => status.ctorIdx + 1

inductive CoopObjectiveStatus where
  | inProgress | completed | failed
  deriving DecidableEq, Repr

/-- `objective_status_reversed`. -/
def CoopObjectiveStatus.legacy (status : CoopObjectiveStatus) : ℤ := status.ctorIdx

inductive CoopProcedure where
  | suspectsIncapacitated | suspectsArrested | missionCompleted | failedToReportDownedOfficer
  | suspectsNeutralized | noCiviliansInjured | incapacitatedHostage | killedHostage
  | incapacitatedFellowOfficer | injuredFellowOfficer | noOfficersDown | noSuspectsNeutralized
  | unauthorizedUseOfDeadlyForce | unauthorizedUseOfForce | playerUninjured
  | failedToPreventDestructionOfEvidence | failedToApprehendFleeingSuspect | reportStatusToToc
  | allEvidenceSecured
  deriving DecidableEq, Repr

/-- `procedures_reversed`. -/
def CoopProcedure.legacy (procedure : CoopProcedure) : ℤ := procedure.ctorIdx

inductive CoopRank where
  | chiefInspector | inspector | captain | lieutenant | sergeant | patrolOfficer | reserveOfficer
  | nonSwornOfficer | recruit | washout | vigilante | menace
  deriving DecidableEq, Repr

inductive GameOutcome where
  | swatBs | susBs | swatRd | susRd | tie | swatVipEscape | susVipGoodKill | swatVipBadKill
  | susVipBadKill | coopCompleted | coopFailed | swatSg | susSg
  deriving DecidableEq, Repr

namespace GameOutcome

/-- `outcome_reversed`, where no outcome has the code zero. -/
def legacy : Option GameOutcome → ℤ
  | none => 0
  | some outcome => outcome.ctorIdx + 1

def swatVictories : List GameOutcome := [swatBs, swatRd, swatVipEscape, swatVipBadKill, swatSg]

def susVictories : List GameOutcome := [susBs, susRd, susVipGoodKill, susVipBadKill, susSg]

end GameOutcome

inductive Equipment where
  | none | m4Super90 | novaPump | shotgun | lessLethalShotgun | pepperBall | coltM4a1Carbine
  | ak47Machinegun | gb36sAssaultRifle | galSubMachinegun | _9mmSmg | suppressed9mmSmg | _45Smg
  | m1911Handgun | _9mmHandgun | coltPython | taserStunGun | vipColtM1911Handgun | csGasVip
  | lightArmor | heavyArmor | gasMask | helmet | flashbang | csGas | stinger | pepperSpray
  | optiwand | toolkit | doorWedge | c2X3 | theDetonator | zipCuffs | iamcuffed
  | coltAccurizedRifle | _40mmGrenadeLauncher | _556mmLightMachineGun | _57x28mmSubmachineGun
  | mark19SemiAutomaticPistol | _9mmMachinePistol | cobraStunGun | ammoPouch | noArmor
  | nightVisionGoggles | stingerGrenade | csGasGrenade | flashbangGrenade | batonGrenade
  deriving DecidableEq, Repr

/-- `equipment_reversed`; `weapon_reversed` is the same without `none`. -/
def Equipment.legacy (equipment : Equipment) : ℤ := equipment.ctorIdx

inductive Ammo where
  | none | m4Super90SgAmmo | m4Super90SgSabotAmmo | novaPumpSgAmmo | novaPumpSgSabotAmmo
  | lessLethalAmmo | csBallLauncherAmmo | m4a1mgJhp | m4a1mgFmj | ak47mgFmj | ak47mgJhp
  | g36kmgFmj | g36kmgJhp | uzismgFmj | uzismgJhp | mp5smgJhp | mp5smgFmj | ump45SmgFmj
  | ump45SmgJhp | coltM1911HgJhp | coltM1911HgFmj | glock9mmHgJhp | glock9mmHgFmj
  | pythonRevolverHgFmj | pythonRevolverHgJhp | taserAmmo | vipPistolAmmoFmj | coltArFmj
  | hk69glStingerGrenadeAmmo | hk69glFlashbangGrenadeAmmo | hk69glCsgasGrenadeAmmo
  | hk69glTripleBatonAmmo | sawmgJhp | sawmgFmj | fnp90SmgFmj | fnp90SmgJhp | dehgFmj | dehgJhp
  | tec9SmgFmj
  deriving DecidableEq, Repr

/-- `ammo_reversed`. -/
def Ammo.legacy (ammo : Ammo) : ℤ := ammo.ctorIdx

/-- The names of `LegacyStatCategory`, which are the names the aggregates are stored under. -/
inductive StatCategory where
  | score | time | games | wins | losses | draws | kills | arrests | deaths | arrested | teamkills
  | topScore | topKillStreak | topArrestStreak | topDeathStreak | vipEscapes | vipCaptures
  | vipRescues | vipKillsValid | vipKillsInvalid | vipTimes | rdBombsDefused | sgEscapes | sgKills
  | spmRatio | sprRatio | kdRatio | coopGames | coopTime | coopWins | coopLosses
  | coopHostageArrests | coopHostageHits | coopHostageIncaps | coopHostageKills | coopEnemyArrests
  | coopEnemyHits | coopEnemyIncaps | coopEnemyKills | coopEnemyIncapsInvalid
  | coopEnemyKillsInvalid | coopTocReports | coopScore | coopTeamkills | coopDeaths | suicides
  | topKills | topArrests | weaponShots | weaponHits | weaponHitRatio | weaponDistance | bsScore
  | bsTime | vipScore | vipTime | rdScore | rdTime | sgScore | sgTime | averageArrestStreak
  | averageDeathStreak | averageKillStreak | coopBestTime | coopTopScore | coopWorstTime
  | distance | grenadeHitRatio | grenadeHits | grenadeKills | grenadeShots | grenadeTeamhitRatio
  | grenadeTeamhits | hitRatio | hits | killRatio | shots | teamhitRatio | teamhits
  | vipEscapeTime | vipWins | weaponKillRatio | weaponKills | weaponTeamhitRatio | weaponTeamhits
  deriving DecidableEq, Repr

/-- The value of the category in `LegacyStatCategory`. -/
def StatCategory.legacy (category : StatCategory) : ℕ := category.ctorIdx

end Swat4Stats
