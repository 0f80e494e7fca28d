import Swat4Stats.Database

/-!
# The schema of a game report

A validated report as the types of its entries, and the integer codes of the map and objective
names that the tracker still stores. The code of a name is its place in the encoding.
-/

namespace Swat4Stats

set_option autoImplicit false

namespace Schema

def mapnameNames : List String :=
  ["Unknown Map", "A-Bomb Nightclub", "Brewer County Courthouse", "Children of Taronne Tenement",
    "DuPlessis Diamond Center", "Enverstar Power Plant", "Fairfax Residence",
    "Food Wall Restaurant", "Meat Barn Restaurant", "Mt. Threshold Research Center",
    "Northside Vending", "Old Granite Hotel", "Qwik Fuel Convenience Store",
    "Red Library Offices", "Riverside Training Facility", "St. Michael's Medical Center",
    "The Wolcott Projects", "Victory Imports Auto Center", "-EXP- Department of Agriculture",
    "-EXP- Drug Lab", "-EXP- Fresnal St. Station", "-EXP- FunTime Amusements",
    "-EXP- Sellers Street Auditorium", "-EXP- Sisters of Mercy Hostel",
    "-EXP- Stetchkov Warehouse", "Untitled", "Fairfaxe Reloaded", "Final Crack Down, COOP",
    "ApartmentNew", "Saint-Paul Asylum", "[c=ffff00]ESA's [c=1e90ff]Foodwall Edit",
    "La Mina v.1.5", "Operation Apollo COOP 1.1 - FIX", "Cave Complex", "Predator2",
    "\x7bEP\x7dMatt´s  Power Plant TSS", "Qwik Fuel (Desrat's SAG)", "Black Water-TTC 1.1",
    "The Watercrip", "2940 Enemy Territory MP", "Newfort (Revision 24) TSS", "-EXP- Drug Lab-RMX",
    "Riverside Training (Desrat's SAG)", "The Building", "Newfort (Revision 24)",
    "Wolcott (Desrat's SAG)", "Operation Apollo 1.1 - FIXED", "Office Space V2.0", "panic room",
    "mistero18-byilmassacratore", "The Phoenix Club", "The Hive (VIP)", "U-273",
    "The Manor - 1.1 - 2013", "-EXP- Newfort (Revision 27)", "City Streets 1.0", "LA City Hall",
    "-MODv- California Security Bank - FIXED", "Car's dealer v1.2", "Mout McKenna 1.0",
    "Desert ops -Village- 1.0", "INTERVAL - 17 - Rmx", "Ashes and Ghosts -Night-", "Penthouse",
    "Civil Unrest", "Storm Front", "Johnson Residence", "Operation Prison Break", "C-Block",
    "The Hive 1.1", "BattleShips", "Children of Taronne (Desrat's SAG)", "Fast Break - Through",
    "A-Bomb (Desrat's SAG)", "Ashes and Ghosts -Day-", "ESA's 3or1", "MP-Terminal",
    "The Entrepot", "E.T.E.R. Training Center", "Subway Station v1.0", "Stuck in the Woods",
    "-EXP- Sisters of Mercy-RMX", "Research Center (Desrat's SAG)",
    "Brewer County (Desrat's SAG)", "Stuck in the woods", "\x7bEP\x7dMatt´s Drugs Deal TSS",
    "Snake's loft", "NewfortBeta", "BLUES CLUB", "Fairfax Residence (Desrat's SAG)",
    "Construction", "Sky Tower", "Food Wall (Desrat's SAG)", "California Security Bank",
    "Dark Waters", "Operation Apollo COOP 1.1", "FAYA's REFUGEES v1.0",
    "Victory Imports (Desrat's SAG)", "Residential Ops.", "2940 Enemy Territory",
    "Clear - Room Service", "Tantive IV", "Red Library (Desrat's SAG)", "Dark Scarlet Restaurant",
    "LA MINA", "Precinct HQ 1.1", "Novatech's Building", "Mout McKenna Snow 1.0",
    "(SEALMAP)Desert_Dust", "Mogadishu Mile 1.0", "ATL Convention Center", "Gangster_Hangout",
    "(SEALMAP)Renovate TSS", "Brentwood Reloaded", "Operation Apollo 1.1", "The China Hotel",
    "Mad Shopping", "(SEALMAP)School", "Diamond Center (Desrat's SAG)", "Newfort2xSus",
    "Ocean Avenue 112", "|ustt| Enemy Territory V2", "Project -SERO- 1.0",
    "C-Block Taronne is back", "Reality Simulation Logistic V1.0", "Power Plant (Desrat's SAG)",
    "5455, Carlton Way", "Assault On City Hall", "Fy_Iceworld2005", "Art Center 1.0",
    "Wainwright Offices", "Children of Tenement-RMX", "Police Station 1.0 - 2013",
    "Hotel Carlyle 2005 v.2.0", "The Asylum", "Final Crack Down, Barricaded Suspects",
    "New Library 1.0", "Star Wars", "-MODv- Johnson Residence - FIXED",
    "-MODv- Hotel Carlyle 2005 - FIXED", "Old Granite Hotel (Desrat's SAG)",
    "Section 8 Fairfax Massacre", "Club ATL", "DELTA CENTER", "Mittelplate Alpha 1.1",
    "panic room Coop", "Mittelplate Alpha 1.2", "Residential Ops VIP", "Nova Corp.",
    "Flash Light Tag", "Mad Butcher`s Shop", "CREEPY HOTEL", "SSF Night Rescue",
    "Operation Prison Break TSS", "Terminal", "Paintball Madness", "Madmap",
    "[c=ffff00]ESA's [c=1e90ff]Riverside Edit", "The Baths Of Anubis", "DEAD_END", "KEOWAREHOUSE",
    "DeAdMaNs UsEd CaR LoT", "Ventura Hotel", "SP-UNDERGROUND", "Medical Center (Desrat's SAG)",
    "The Metropol", "MP-Le Camp", "SubWay", "The Killing House -Small-", "Reaction: Ak/Colt",
    "=HT=Operation Freedom", "Genovese & Feinbloom", "|ustt| Enemy Territory V2 CoOp",
    "The Building v1.1", "AssasinationRoom, Aupicia:Clan A-T",
    "Department Of Criminal Justice V1", "Combat Zone", "Ventura Hotel v1r1",
    "\x7bEP\x7dMatt´s Medical Center TSS", "SSF TrainingCenter 1.0", "Operation Dusk Till Dawn",
    "MP Rush", "SP-TRANSPORT", "Parking Garage v1.0", "Club -[*ATL*]-", "TERRORISTA",
    "Meat Barn (Desrat's SAG)", "Gris Import Export", "The Cinepark Conflict", "Cabin Fever",
    "Swanky Mansion", "Apartment 525", "Warehouse 5th Street", "Operation DayBreak",
    "Brewer County Courthouse COOP", "Food Wall Restaurant butchered", "Fede's Nightmare",
    "(SEALMAP)Central_Base"]

/-- `mapnames_reversed.get(mapname, -1)`. -/
def mapnamesReversed (mapname : String) : ℤ :=
  match mapnameNames.idxOf? mapname with
  | some index => (index : ℤ) - 1
  | none => -1

/-- The names of `objectives_encoded`, from the code 0 on. -/
def objectiveNames : List String :=
  ["Rendezvous with Jennings", "Avoid civilian injuries", "Avoid officer injuries",
    "Avoid officer casualties", "Avoid suspect casualties", "Avoid injuries to yourself",
    "Debrief before the timer expires", "Find and deactivate the bombs",
    "Find and disarm the bombs!", "Investigate the laundromat", "Neutralize Alice Jenkins",
    "Bring order to chaos", "Neutralize Javier Arias", "Neutralize Andrew Taronne",
    "Neutralize Anton Georgiev", "Neutralize Simon Gowan", "Neutralize Lian Niu",
    "Neutralize Alex Jimenez", "Neutralize Lawrence Fairfax", "Neutralize Kiril Stetchkov",
    "Neutralize Hadeon Koshka", "Neutralize Allen Kruse", "Neutralize Andrew Norman",
    "Neutralize Jean Trouffant", "Neutralize Todor Stetchkov", "Rescue Lawrence Adams",
    "Rescue all of the civilians", "Rescue Gary Altman", "Arrest Louie Baccus",
    "Rescue James Betincourt", "Rescue Oscar Bogard", "Rescue Warren Rooney",
    "Rescue Hyun-Jun Park", "Rescue Willis Fischer", "Rescue Melinda Kline",
    "Rescue Lionel Macarthur", "Rescue Heidi Rosenstein", "Rescue Dr. Theodore Sturgeon",
    "Rescue Kim Dong Yin", "Rescue Detective Walsh", "Locate Officer Wilkins",
    "Rescue Rita Winston", "Secure the briefcase", "Secure the MAC-10"]

def objectivesReversed (name : String) : Except TrackerError ℤ :=
  match objectiveNames.idxOf? name with
  | some index => .ok index
  | none => .error (.keyError name)

/-- `weapon_reversed`, which has no entry for `none`. -/
def weaponReversed : Equipment → Except TrackerError ℤ
  | .none => .error (.keyError "None")
  | weapon => .ok weapon.legacy

end Schema

structure ProcedureItem where
  name : CoopProcedure
  status : String
  score : ℤ
  deriving DecidableEq, Repr

structure ObjectiveItem where
  name : String
  status : CoopObjectiveStatus
  deriving DecidableEq, Repr

/-- `name` is `none` for the value -1 of a weapon without a known code. -/
structure WeaponItem where
  name : Option Equipment
  time : ℤ
  shots : ℤ
  hits : ℤ
  teamhits : ℤ
  kills : ℤ
  teamkills : ℤ
  distance : ℤ
  deriving DecidableEq, Repr

/-- A player of a report; `none` stands for a missing key, so that a co-op status may be missing
or be there and say nothing. -/
structure PlayerItem where
  ip : Text
  name : Text
  team : Team
  dropped : Bool := false
  admin : Bool := false
  vip : Option Bool := none
  coopStatus : Option (Option CoopStatus) := none
  stats : PlayerField → Option ℤ := fun _ => none
  loadout : Option (LoadoutSlots Equipment Ammo) := none
  weapons : Option (List WeaponItem) := none

/-- The entries of a validated report that a game is made from. -/
structure GameData where
  tag : String
  gametype : GameType
  mapname : String
  outcome : Option GameOutcome
  time : ℤ
  playerNum : ℤ
  scoreSwat : ℤ
  scoreSus : ℤ
  victSwat : ℤ
  victSus : ℤ
  bombsDefused : ℤ
  bombsTotal : ℤ
  coopProcedures : Option (List ProcedureItem) := none
  coopObjectives : Option (List ObjectiveItem) := none
  players : Option (List PlayerItem) := none

end Swat4Stats
