import Swat4Stats.Schema

/-!
# Encodings

The codes that a report or a status response gives for the names of the tracker. Where the codes
are the places of the names, a code is decoded by its place.
-/

namespace Swat4Stats

set_option autoImplicit false

namespace Schema

def gamenameNames : List String := ["SWAT 4", "SWAT 4X"]

/-- `gametype_names`, in the order of the codes. -/
def gametypeNames : List (String × GameType) :=
  [("Barricaded Suspects", .barricadedSuspects), ("VIP Escort", .vipEscort),
    ("Rapid Deployment", .rapidDeployment), ("CO-OP", .coOp), ("Smash And Grab", .smashAndGrab),
    ("CO-OP QMM", .coOpQmm)]

def objectiveMapping : List (String × String) :=
  [("Arrest_Jennings", "Rendezvous with Jennings"),
    ("Custom_NoCiviliansInjured", "Avoid civilian injuries"),
    ("Neutralize_Alice", "Neutralize Alice Jenkins"),
    ("Neutralize_All_Enemies", "Bring order to chaos"),
    ("Neutralize_Arias", "Neutralize Javier Arias"),
    ("Neutralize_CultLeader", "Neutralize Andrew Taronne"),
    ("Neutralize_Georgiev", "Neutralize Anton Georgiev"),
    ("Neutralize_Grover", "Neutralize Simon Gowan"),
    ("Neutralize_GunBroker", "Neutralize Lian Niu"),
    ("Neutralize_Jimenez", "Neutralize Alex Jimenez"),
    ("Neutralize_Killer", "Neutralize Lawrence Fairfax"),
    ("Neutralize_Kiril", "Neutralize Kiril Stetchkov"),
    ("Custom_NoOfficersInjured", "Avoid officer injuries"),
    ("Neutralize_Koshka", "Neutralize Hadeon Koshka"),
    ("Neutralize_Kruse", "Neutralize Allen Kruse"),
    ("Neutralize_Norman", "Neutralize Andrew Norman"),
    ("Neutralize_TerrorLeader", "Neutralize Jean Trouffant"),
    ("Neutralize_Todor", "Neutralize Todor Stetchkov"), ("Rescue_Adams", "Rescue Lawrence Adams"),
    ("Rescue_All_Hostages", "Rescue all of the civilians"),
    ("Rescue_Altman", "Rescue Gary Altman"), ("Rescue_Baccus", "Arrest Louie Baccus"),
    ("Rescue_Bettencourt", "Rescue James Betincourt"),
    ("Custom_NoOfficersKilled", "Avoid officer casualties"),
    ("Rescue_Bogard", "Rescue Oscar Bogard"), ("Rescue_CEO", "Rescue Warren Rooney"),
    ("Rescue_Diplomat", "Rescue Hyun-Jun Park"), ("Rescue_Fillinger", "Rescue Willis Fischer"),
    ("Rescue_Kline", "Rescue Melinda Kline"), ("Rescue_Macarthur", "Rescue Lionel Macarthur"),
    ("Rescue_Rosenstein", "Rescue Heidi Rosenstein"),
    ("Rescue_Sterling", "Rescue Dr. Theodore Sturgeon"),
    ("Rescue_Victims", "Rescue Kim Dong Yin"), ("Rescue_Walsh", "Rescue Detective Walsh"),
    ("Custom_NoSuspectsKilled", "Avoid suspect casualties"),
    ("Rescue_Wilkins", "Locate Officer Wilkins"), ("Rescue_Winston", "Rescue Rita Winston"),
    ("Secure_Briefcase", "Secure the briefcase"), ("Secure_Weapon", "Secure the MAC-10"),
    ("Custom_PlayerUninjured", "Avoid injuries to yourself"),
    ("Custom_Timed", "Debrief before the timer expires"),
    ("Disable_Bombs", "Find and deactivate the bombs"),
    ("Disable_Office_Bombs", "Find and disarm the bombs!"),
    ("Investigate_Laundromat", "Investigate the laundromat"),
    ("BangAndClear", "Order the element to Bang and Clear"),
    ("BlueStackUp", "Order the Blue Team to Stack Up"),
    ("CommandThroughViewport", "Order Blue to Move & Clear using viewport"),
    ("Complete_GrenadePractice", "Try each of the grenades"),
    ("Complete_LockedDoors", "Get through the locked doors"),
    ("Complete_ShootingRange", "Fire your weapons at all three distances"),
    ("Complete_TargetPractice", "Shoot each of the four targets"),
    ("Complete_Training", "Complete the training course"),
    ("FirstDefault", "Order the element to Fall In"),
    ("Keep_Cadets_Healthy", "Do not incapacitate the volunteers"),
    ("Keep_Trainer_Alive", "Do not kill Lieutenant Bonds"),
    ("Keep_Volunteers_Alive", "Do not kill the volunteers"),
    ("MoveRedToOtherDoor", "Bring Red to the door on the left"),
    ("Neutralize_Moretti", "Neutralize Adam Moretti"),
    ("OpenAndClearDefault", "Order the element to Open and Clear"),
    ("Rescue_Hanson", "Do not kill Officer Hanson"),
    ("Rescue_Hostages", "Rescue as many civilians as possible"),
    ("RestrainHanson", "Restrain Officer Hanson"),
    ("Training_ProtectOfficers", "Do not kill your fellow officers"),
    ("UseOptiwand", "Order the element to Move and Clear"),
    ("UseSniper", "Shoot the target with the sniper"),
    ("YellCompliance", "Get Officer Hanson to comply")]

/-- The value at the place of the code. -/
def decode {β : Type} (values : List β) (code : ℤ) : Option β :=
  if 0 ≤ code then values[code.toNat]? else none

/-- A code that is the place of a constructor. -/
def decodeCtor {β : Type} (ofNat : ℕ → β) (count : ℕ) (code : ℤ) : Option β :=
  if 0 ≤ code ∧ code < count then some (ofNat code.toNat) else none

def teamsEncoded : ℤ → Option Team := decode [.swat, .suspects, .swat]

def coopStatusEncoded : ℤ → Option (Option CoopStatus) :=
  decode [none, some .ready, some .healthy, some .injured, some .incapacitated]

def outcomeEncoded (code : ℤ) : Option (Option GameOutcome) :=
  if code = 0 then some none
  else (decodeCtor GameOutcome.ofNat 13 (code - 1)).map some

def objectivesEncoded : ℤ → Option String := decode objectiveNames

def objectiveStatusEncoded : ℤ → Option CoopObjectiveStatus :=
  decodeCtor CoopObjectiveStatus.ofNat 3

def proceduresEncoded : ℤ → Option CoopProcedure := decodeCtor CoopProcedure.ofNat 19

def equipmentEncoded : ℤ → Option Equipment := decodeCtor Equipment.ofNat 48

def ammoEncoded : ℤ → Option Ammo := decodeCtor Ammo.ofNat 39

/-- Any other code stands for no weapon. -/
def weaponEncoded (code : ℤ) : Option Equipment :=
  (equipmentEncoded code).filter (· ≠ .none)

/-- `FallbackMapping`, where the keys are the codes in decimal, from the first one on. -/
def fallback (first : ℤ) (names : List String) (value : Text) : Text :=
  match names.zipIdx.find? fun entry => value = (toString (first + entry.2)).toList with
  | some entry => entry.1.toList
  | none => value

end Schema

end Swat4Stats
