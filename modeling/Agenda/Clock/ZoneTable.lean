import Agenda.Clock.ZoneText
/-!
Time zones by name. What zones there are is for the system to say: a `ZoneBook` has the zone of the place and those that
have a name or a file. The zones that are listed here are for systems without files of zones. One that was ever on summer
time is given by its local mean time, the seconds from which standard and summer time took turns, and the rule that
holds since the last of them.
-/
namespace Agenda

/-- The zones of a system. -/
structure ZoneBook where
  /-- The zone of the place, which holds when no other is asked for. -/
  here : Zone
  /-- The zone that a name, or the path of a file, stands for. -/
  find : List Char → Option Zone

/-- The zone that a text names or describes. A colon in front says that it is a name. Universal time stands for the empty
text and for what is unknown. -/
def ZoneBook.ofText (book : ZoneBook) (s : List Char) : Zone :=
  match s with
  | [] => Zone.utc
  | ':' :: name => (book.find name).getD Zone.utc
  | _ =>
    match ZoneRule.ofText? s with
    | some r => ⟨[], r⟩
    | none => (book.find s).getD Zone.utc

namespace Zone

/-- Two offsets that take turns up to each of some seconds. -/
def turns (offset other : Int) : List Int → List (Int × Int)
  | [] => []
  | t :: ts => (t, offset) :: turns other offset ts

/-- The changes in New York after local mean time, up to the summer of 2007. -/
def newYorkChanges : List Int := [
  -1633280400, -1615140000, -1601830800, -1583690400, -1570381200, -1551636000, -1536512400, -1523210400, -1504458000,
  -1491760800, -1473008400, -1459706400, -1441558800, -1428256800, -1410109200, -1396807200, -1378659600, -1365357600,
  -1347210000, -1333908000, -1315155600, -1301853600, -1283706000, -1270404000, -1252256400, -1238954400, -1220806800,
  -1207504800, -1189357200, -1176055200, -1157302800, -1144605600, -1125853200, -1112551200, -1094403600, -1081101600,
  -1062954000, -1049652000, -1031504400, -1018202400, -1000054800, -986752800, -968000400, -955303200, -936550800,
  -923248800, -905101200, -891799200, -880218000, -765396000, -747248400, -733946400, -715798800, -702496800,
  -684349200, -671047200, -652899600, -639597600, -620845200, -608148000, -589395600, -576093600, -557946000,
  -544644000, -526496400, -513194400, -495046800, -481744800, -463597200, -447271200, -431542800, -415821600,
  -400093200, -384372000, -368643600, -352922400, -337194000, -321472800, -305744400, -289418400, -273690000,
  -257968800, -242240400, -226519200, -210790800, -195069600, -179341200, -163620000, -147891600, -131565600,
  -116442000, -100116000, -84387600, -68666400, -52938000, -37216800, -21488400, -5767200, 9961200, 25682400,
  41410800, 57736800, 73465200, 89186400, 104914800, 120636000, 126687600, 152085600, 162370800, 183535200, 199263600,
  215589600, 230713200, 247039200, 262767600, 278488800, 294217200, 309938400, 325666800, 341388000, 357116400,
  372837600, 388566000, 404892000, 420015600, 436341600, 452070000, 467791200, 483519600, 499240800, 514969200,
  530690400, 544604400, 562140000, 576054000, 594194400, 607503600, 625644000, 638953200, 657093600, 671007600,
  688543200, 702457200, 719992800, 733906800, 752047200, 765356400, 783496800, 796806000, 814946400, 828860400,
  846396000, 860310000, 877845600, 891759600, 909295200, 923209200, 941349600, 954658800, 972799200, 986108400,
  1004248800, 1018162800, 1035698400, 1049612400, 1067148000, 1081062000, 1099202400, 1112511600, 1130652000,
  1143961200, 1162101600, 1173596400]

def newYork : Zone :=
  ⟨(-2717650800, -17762) :: turns (-18000) (-14400) newYorkChanges,
    .seasonal (-18000) (-14400) ⟨.weekday 3 2 0, 7200⟩ ⟨.weekday 11 1 0, 7200⟩⟩

def tokyoChanges : List Int := [
  -683802000, -672310800, -654771600, -640861200, -620298000, -609411600, -588848400, -577962000]

def tokyo : Zone :=
  ⟨(-2587712400, 33539) :: turns 32400 36000 tokyoChanges, .fixed 32400⟩

/-- The zones that have a name, the names in lower case. -/
def named : List (List Char × Zone) :=
  [("america/new_york".toList, newYork), ("asia/tokyo".toList, tokyo)]

/-- The zone with a given name, in upper or lower case. -/
def named? (name : List Char) : Option Zone :=
  named.lookup (name.map Char.toLower)

end Zone

/-- The zones that are listed here, at a place where clocks show universal time. -/
def ZoneBook.shipped : ZoneBook :=
  ⟨.utc, Zone.named?⟩

end Agenda
