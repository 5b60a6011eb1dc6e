/-
  The zones that are known by name, with their recorded changes.
-/
import Timespan.Zone.Schedule

namespace Timespan.Zone

def utcSchedule : Schedule where
  initial := 0
  changes := []
  rule := ⟨0, none⟩

def karachi : Schedule where
  initial := 16092
  changes :=
    [⟨-1988166492, 19800⟩, ⟨-862637400, 23400⟩, ⟨-764145000, 19800⟩, ⟨-576135000, 18000⟩,
     ⟨1018119600, 21600⟩, ⟨1033840800, 18000⟩, ⟨1212260400, 21600⟩, ⟨1225476000, 18000⟩,
     ⟨1239735600, 21600⟩, ⟨1257012000, 18000⟩]
  rule := ⟨18000, none⟩

def newYork : Schedule where
  initial := -17762
  changes :=
    [⟨-2717650800, -18000⟩, ⟨-1633280400, -14400⟩, ⟨-1615140000, -18000⟩, ⟨-1601830800, -14400⟩,
     ⟨-1583690400, -18000⟩, ⟨-1570381200, -14400⟩, ⟨-1551636000, -18000⟩, ⟨-1536512400, -14400⟩,
     ⟨-1523210400, -18000⟩, ⟨-1504458000, -14400⟩, ⟨-1491760800, -18000⟩, ⟨-1473008400, -14400⟩,
     ⟨-1459706400, -18000⟩, ⟨-1441558800, -14400⟩, ⟨-1428256800, -18000⟩, ⟨-1410109200, -14400⟩,
     ⟨-1396807200, -18000⟩, ⟨-1378659600, -14400⟩, ⟨-1365357600, -18000⟩, ⟨-1347210000, -14400⟩,
     ⟨-1333908000, -18000⟩, ⟨-1315155600, -14400⟩, ⟨-1301853600, -18000⟩, ⟨-1283706000, -14400⟩,
     ⟨-1270404000, -18000⟩, ⟨-1252256400, -14400⟩, ⟨-1238954400, -18000⟩, ⟨-1220806800, -14400⟩,
     ⟨-1207504800, -18000⟩, ⟨-1189357200, -14400⟩, ⟨-1176055200, -18000⟩, ⟨-1157302800, -14400⟩,
     ⟨-1144605600, -18000⟩, ⟨-1125853200, -14400⟩, ⟨-1112551200, -18000⟩, ⟨-1094403600, -14400⟩,
     ⟨-1081101600, -18000⟩, ⟨-1062954000, -14400⟩, ⟨-1049652000, -18000⟩, ⟨-1031504400, -14400⟩,
     ⟨-1018202400, -18000⟩, ⟨-1000054800, -14400⟩, ⟨-986752800, -18000⟩, ⟨-968000400, -14400⟩,
     ⟨-955303200, -18000⟩, ⟨-936550800, -14400⟩, ⟨-923248800, -18000⟩, ⟨-905101200, -14400⟩,
     ⟨-891799200, -18000⟩, ⟨-880218000, -14400⟩, ⟨-765396000, -18000⟩, ⟨-747248400, -14400⟩,
     ⟨-733946400, -18000⟩, ⟨-715798800, -14400⟩, ⟨-702496800, -18000⟩, ⟨-684349200, -14400⟩,
     ⟨-671047200, -18000⟩, ⟨-652899600, -14400⟩, ⟨-639597600, -18000⟩, ⟨-620845200, -14400⟩,
     ⟨-608148000, -18000⟩, ⟨-589395600, -14400⟩, ⟨-576093600, -18000⟩, ⟨-557946000, -14400⟩,
     ⟨-544644000, -18000⟩, ⟨-526496400, -14400⟩, ⟨-513194400, -18000⟩, ⟨-495046800, -14400⟩,
     ⟨-481744800, -18000⟩, ⟨-463597200, -14400⟩, ⟨-447271200, -18000⟩, ⟨-431542800, -14400⟩,
     ⟨-415821600, -18000⟩, ⟨-400093200, -14400⟩, ⟨-384372000, -18000⟩, ⟨-368643600, -14400⟩,
     ⟨-352922400, -18000⟩, ⟨-337194000, -14400⟩, ⟨-321472800, -18000⟩, ⟨-305744400, -14400⟩,
     ⟨-289418400, -18000⟩, ⟨-273690000, -14400⟩, ⟨-257968800, -18000⟩, ⟨-242240400, -14400⟩,
     ⟨-226519200, -18000⟩, ⟨-210790800, -14400⟩, ⟨-195069600, -18000⟩, ⟨-179341200, -14400⟩,
     ⟨-163620000, -18000⟩, ⟨-147891600, -14400⟩, ⟨-131565600, -18000⟩, ⟨-116442000, -14400⟩,
     ⟨-100116000, -18000⟩, ⟨-84387600, -14400⟩, ⟨-68666400, -18000⟩, ⟨-52938000, -14400⟩,
     ⟨-37216800, -18000⟩, ⟨-21488400, -14400⟩, ⟨-5767200, -18000⟩, ⟨9961200, -14400⟩,
     ⟨25682400, -18000⟩, ⟨41410800, -14400⟩, ⟨57736800, -18000⟩, ⟨73465200, -14400⟩,
     ⟨89186400, -18000⟩, ⟨104914800, -14400⟩, ⟨120636000, -18000⟩, ⟨126687600, -14400⟩,
     ⟨152085600, -18000⟩, ⟨162370800, -14400⟩, ⟨183535200, -18000⟩, ⟨199263600, -14400⟩,
     ⟨215589600, -18000⟩, ⟨230713200, -14400⟩, ⟨247039200, -18000⟩, ⟨262767600, -14400⟩,
     ⟨278488800, -18000⟩, ⟨294217200, -14400⟩, ⟨309938400, -18000⟩, ⟨325666800, -14400⟩,
     ⟨341388000, -18000⟩, ⟨357116400, -14400⟩, ⟨372837600, -18000⟩, ⟨388566000, -14400⟩,
     ⟨404892000, -18000⟩, ⟨420015600, -14400⟩, ⟨436341600, -18000⟩, ⟨452070000, -14400⟩,
     ⟨467791200, -18000⟩, ⟨483519600, -14400⟩, ⟨499240800, -18000⟩, ⟨514969200, -14400⟩,
     ⟨530690400, -18000⟩, ⟨544604400, -14400⟩, ⟨562140000, -18000⟩, ⟨576054000, -14400⟩,
     ⟨594194400, -18000⟩, ⟨607503600, -14400⟩, ⟨625644000, -18000⟩, ⟨638953200, -14400⟩,
     ⟨657093600, -18000⟩, ⟨671007600, -14400⟩, ⟨688543200, -18000⟩, ⟨702457200, -14400⟩,
     ⟨719992800, -18000⟩, ⟨733906800, -14400⟩, ⟨752047200, -18000⟩, ⟨765356400, -14400⟩,
     ⟨783496800, -18000⟩, ⟨796806000, -14400⟩, ⟨814946400, -18000⟩, ⟨828860400, -14400⟩,
     ⟨846396000, -18000⟩, ⟨860310000, -14400⟩, ⟨877845600, -18000⟩, ⟨891759600, -14400⟩,
     ⟨909295200, -18000⟩, ⟨923209200, -14400⟩, ⟨941349600, -18000⟩, ⟨954658800, -14400⟩,
     ⟨972799200, -18000⟩, ⟨986108400, -14400⟩, ⟨1004248800, -18000⟩, ⟨1018162800, -14400⟩,
     ⟨1035698400, -18000⟩, ⟨1049612400, -14400⟩, ⟨1067148000, -18000⟩, ⟨1081062000, -14400⟩,
     ⟨1099202400, -18000⟩, ⟨1112511600, -14400⟩, ⟨1130652000, -18000⟩, ⟨1143961200, -14400⟩,
     ⟨1162101600, -18000⟩, ⟨1173596400, -14400⟩]
  rule := ⟨-18000, some ⟨-14400, ⟨3, 2, 0, 7200⟩, ⟨11, 1, 0, 7200⟩⟩⟩

def london : Schedule where
  initial := -75
  changes :=
    [⟨-3852662325, 0⟩, ⟨-1691964000, 3600⟩, ⟨-1680472800, 0⟩, ⟨-1664143200, 3600⟩, ⟨-1650146400, 0⟩,
     ⟨-1633903200, 3600⟩, ⟨-1617487200, 0⟩, ⟨-1601848800, 3600⟩, ⟨-1586037600, 0⟩,
     ⟨-1570399200, 3600⟩, ⟨-1552168800, 0⟩, ⟨-1538344800, 3600⟩, ⟨-1522533600, 0⟩,
     ⟨-1507500000, 3600⟩, ⟨-1490565600, 0⟩, ⟨-1473631200, 3600⟩, ⟨-1460930400, 0⟩,
     ⟨-1442786400, 3600⟩, ⟨-1428876000, 0⟩, ⟨-1410732000, 3600⟩, ⟨-1396216800, 0⟩,
     ⟨-1379282400, 3600⟩, ⟨-1364767200, 0⟩, ⟨-1348437600, 3600⟩, ⟨-1333317600, 0⟩,
     ⟨-1315778400, 3600⟩, ⟨-1301263200, 0⟩, ⟨-1284328800, 3600⟩, ⟨-1269813600, 0⟩,
     ⟨-1253484000, 3600⟩, ⟨-1238364000, 0⟩, ⟨-1221429600, 3600⟩, ⟨-1206914400, 0⟩,
     ⟨-1189980000, 3600⟩, ⟨-1175464800, 0⟩, ⟨-1159135200, 3600⟩, ⟨-1143410400, 0⟩,
     ⟨-1126476000, 3600⟩, ⟨-1111960800, 0⟩, ⟨-1095631200, 3600⟩, ⟨-1080511200, 0⟩,
     ⟨-1063576800, 3600⟩, ⟨-1049061600, 0⟩, ⟨-1032127200, 3600⟩, ⟨-1017612000, 0⟩,
     ⟨-1001282400, 3600⟩, ⟨-986162400, 0⟩, ⟨-969228000, 3600⟩, ⟨-950479200, 0⟩, ⟨-942012000, 3600⟩,
     ⟨-904518000, 7200⟩, ⟨-896050800, 3600⟩, ⟨-875487600, 7200⟩, ⟨-864601200, 3600⟩,
     ⟨-844038000, 7200⟩, ⟨-832546800, 3600⟩, ⟨-812588400, 7200⟩, ⟨-798073200, 3600⟩,
     ⟨-781052400, 7200⟩, ⟨-772066800, 3600⟩, ⟨-764805600, 0⟩, ⟨-748476000, 3600⟩, ⟨-733356000, 0⟩,
     ⟨-719445600, 3600⟩, ⟨-717030000, 7200⟩, ⟨-706748400, 3600⟩, ⟨-699487200, 0⟩,
     ⟨-687996000, 3600⟩, ⟨-668037600, 0⟩, ⟨-654732000, 3600⟩, ⟨-636588000, 0⟩, ⟨-622072800, 3600⟩,
     ⟨-605743200, 0⟩, ⟨-590623200, 3600⟩, ⟨-574293600, 0⟩, ⟨-558568800, 3600⟩, ⟨-542239200, 0⟩,
     ⟨-527119200, 3600⟩, ⟨-512604000, 0⟩, ⟨-496274400, 3600⟩, ⟨-481154400, 0⟩, ⟨-464220000, 3600⟩,
     ⟨-449704800, 0⟩, ⟨-432165600, 3600⟩, ⟨-417650400, 0⟩, ⟨-401320800, 3600⟩, ⟨-386200800, 0⟩,
     ⟨-369266400, 3600⟩, ⟨-354751200, 0⟩, ⟨-337816800, 3600⟩, ⟨-323301600, 0⟩, ⟨-306972000, 3600⟩,
     ⟨-291852000, 0⟩, ⟨-276732000, 3600⟩, ⟨-257983200, 0⟩, ⟨-245282400, 3600⟩, ⟨-226533600, 0⟩,
     ⟨-213228000, 3600⟩, ⟨-195084000, 0⟩, ⟨-182383200, 3600⟩, ⟨-163634400, 0⟩, ⟨-150933600, 3600⟩,
     ⟨-132184800, 0⟩, ⟨-119484000, 3600⟩, ⟨-100735200, 0⟩, ⟨-88034400, 3600⟩, ⟨-68680800, 0⟩,
     ⟨-59004000, 3600⟩, ⟨57722400, 0⟩, ⟨69818400, 3600⟩, ⟨89172000, 0⟩, ⟨101268000, 3600⟩,
     ⟨120621600, 0⟩, ⟨132717600, 3600⟩, ⟨152071200, 0⟩, ⟨164167200, 3600⟩, ⟨183520800, 0⟩,
     ⟨196221600, 3600⟩, ⟨214970400, 0⟩, ⟨227671200, 3600⟩, ⟨246420000, 0⟩, ⟨259120800, 3600⟩,
     ⟨278474400, 0⟩, ⟨290570400, 3600⟩, ⟨309924000, 0⟩, ⟨322020000, 3600⟩, ⟨341373600, 0⟩,
     ⟨354675600, 3600⟩, ⟨372819600, 0⟩, ⟨386125200, 3600⟩, ⟨404269200, 0⟩, ⟨417574800, 3600⟩,
     ⟨435718800, 0⟩, ⟨449024400, 3600⟩, ⟨467773200, 0⟩, ⟨481078800, 3600⟩, ⟨499222800, 0⟩,
     ⟨512528400, 3600⟩, ⟨530672400, 0⟩, ⟨543978000, 3600⟩, ⟨562122000, 0⟩, ⟨575427600, 3600⟩,
     ⟨593571600, 0⟩, ⟨606877200, 3600⟩, ⟨625626000, 0⟩, ⟨638326800, 3600⟩, ⟨657075600, 0⟩,
     ⟨670381200, 3600⟩, ⟨688525200, 0⟩, ⟨701830800, 3600⟩, ⟨719974800, 0⟩, ⟨733280400, 3600⟩,
     ⟨751424400, 0⟩, ⟨764730000, 3600⟩, ⟨782874000, 0⟩, ⟨796179600, 3600⟩, ⟨814323600, 0⟩,
     ⟨820454400, 0⟩]
  rule := ⟨0, some ⟨3600, ⟨3, 5, 0, 3600⟩, ⟨10, 5, 0, 7200⟩⟩⟩

def kathmandu : Schedule where
  initial := 20476
  changes :=
    [⟨-1577943676, 19800⟩, ⟨504901800, 20700⟩]
  rule := ⟨20700, none⟩

def kolkata : Schedule where
  initial := 21208
  changes :=
    [⟨-3645237208, 21200⟩, ⟨-3155694800, 19270⟩, ⟨-2019705670, 19800⟩, ⟨-891581400, 23400⟩,
     ⟨-872058600, 19800⟩, ⟨-862637400, 23400⟩, ⟨-764145000, 19800⟩]
  rule := ⟨19800, none⟩

def lordHowe : Schedule where
  initial := 38180
  changes :=
    [⟨-2364114980, 36000⟩, ⟨352216800, 37800⟩, ⟨372785400, 41400⟩, ⟨384273000, 37800⟩,
     ⟨404839800, 41400⟩, ⟨415722600, 37800⟩, ⟨436289400, 41400⟩, ⟨447172200, 37800⟩,
     ⟨467739000, 41400⟩, ⟨478621800, 37800⟩, ⟨499188600, 39600⟩, ⟨511282800, 37800⟩,
     ⟨530033400, 39600⟩, ⟨542732400, 37800⟩, ⟨562087800, 39600⟩, ⟨574786800, 37800⟩,
     ⟨594142200, 39600⟩, ⟨606236400, 37800⟩, ⟨625591800, 39600⟩, ⟨636476400, 37800⟩,
     ⟨657041400, 39600⟩, ⟨667926000, 37800⟩, ⟨688491000, 39600⟩, ⟨699375600, 37800⟩,
     ⟨719940600, 39600⟩, ⟨731430000, 37800⟩, ⟨751995000, 39600⟩, ⟨762879600, 37800⟩,
     ⟨783444600, 39600⟩, ⟨794329200, 37800⟩, ⟨814894200, 39600⟩, ⟨828198000, 37800⟩,
     ⟨846343800, 39600⟩, ⟨859647600, 37800⟩, ⟨877793400, 39600⟩, ⟨891097200, 37800⟩,
     ⟨909243000, 39600⟩, ⟨922546800, 37800⟩, ⟨941297400, 39600⟩, ⟨953996400, 37800⟩,
     ⟨967303800, 39600⟩, ⟨985446000, 37800⟩, ⟨1004196600, 39600⟩, ⟨1017500400, 37800⟩,
     ⟨1035646200, 39600⟩, ⟨1048950000, 37800⟩, ⟨1067095800, 39600⟩, ⟨1080399600, 37800⟩,
     ⟨1099150200, 39600⟩, ⟨1111849200, 37800⟩, ⟨1130599800, 39600⟩, ⟨1143903600, 37800⟩,
     ⟨1162049400, 39600⟩, ⟨1174748400, 37800⟩, ⟨1193499000, 39600⟩, ⟨1207407600, 37800⟩]
  rule := ⟨37800, some ⟨39600, ⟨10, 1, 0, 7200⟩, ⟨4, 1, 0, 7200⟩⟩⟩

def apia : Schedule where
  initial := 45184
  changes :=
    [⟨-2445424384, -41216⟩, ⟨-1861878784, -41400⟩, ⟨-631110600, -39600⟩, ⟨1285498800, -36000⟩,
     ⟨1301752800, -39600⟩, ⟨1316872800, -36000⟩, ⟨1325239200, 50400⟩, ⟨1333202400, 46800⟩,
     ⟨1348927200, 50400⟩, ⟨1365256800, 46800⟩, ⟨1380376800, 50400⟩, ⟨1396706400, 46800⟩,
     ⟨1411826400, 50400⟩, ⟨1428156000, 46800⟩, ⟨1443276000, 50400⟩, ⟨1459605600, 46800⟩,
     ⟨1474725600, 50400⟩, ⟨1491055200, 46800⟩, ⟨1506175200, 50400⟩, ⟨1522504800, 46800⟩,
     ⟨1538229600, 50400⟩, ⟨1554559200, 46800⟩, ⟨1569679200, 50400⟩, ⟨1586008800, 46800⟩,
     ⟨1601128800, 50400⟩, ⟨1617458400, 46800⟩]
  rule := ⟨46800, none⟩

def saoPaulo : Schedule where
  initial := -11188
  changes :=
    [⟨-1767214412, -10800⟩, ⟨-1206957600, -7200⟩, ⟨-1191362400, -10800⟩, ⟨-1175374800, -7200⟩,
     ⟨-1159826400, -10800⟩, ⟨-633819600, -7200⟩, ⟨-622069200, -10800⟩, ⟨-602283600, -7200⟩,
     ⟨-591832800, -10800⟩, ⟨-570747600, -7200⟩, ⟨-560210400, -10800⟩, ⟨-539125200, -7200⟩,
     ⟨-531352800, -10800⟩, ⟨-195426000, -7200⟩, ⟨-184197600, -10800⟩, ⟨-155163600, -7200⟩,
     ⟨-149983200, -10800⟩, ⟨-128898000, -7200⟩, ⟨-121122000, -10800⟩, ⟨-99954000, -7200⟩,
     ⟨-89589600, -10800⟩, ⟨-68418000, -7200⟩, ⟨-57967200, -10800⟩, ⟨499748400, -7200⟩,
     ⟨511236000, -10800⟩, ⟨530593200, -7200⟩, ⟨540266400, -10800⟩, ⟨562129200, -7200⟩,
     ⟨571197600, -10800⟩, ⟨592974000, -7200⟩, ⟨602042400, -10800⟩, ⟨624423600, -7200⟩,
     ⟨634701600, -10800⟩, ⟨656478000, -7200⟩, ⟨666756000, -10800⟩, ⟨687927600, -7200⟩,
     ⟨697600800, -10800⟩, ⟨719982000, -7200⟩, ⟨728445600, -10800⟩, ⟨750826800, -7200⟩,
     ⟨761709600, -10800⟩, ⟨782276400, -7200⟩, ⟨793159200, -10800⟩, ⟨813726000, -7200⟩,
     ⟨824004000, -10800⟩, ⟨844570800, -7200⟩, ⟨856058400, -10800⟩, ⟨876106800, -7200⟩,
     ⟨888717600, -10800⟩, ⟨908074800, -7200⟩, ⟨919562400, -10800⟩, ⟨938919600, -7200⟩,
     ⟨951616800, -10800⟩, ⟨970974000, -7200⟩, ⟨982461600, -10800⟩, ⟨1003028400, -7200⟩,
     ⟨1013911200, -10800⟩, ⟨1036292400, -7200⟩, ⟨1045360800, -10800⟩, ⟨1066532400, -7200⟩,
     ⟨1076810400, -10800⟩, ⟨1099364400, -7200⟩, ⟨1108864800, -10800⟩, ⟨1129431600, -7200⟩,
     ⟨1140314400, -10800⟩, ⟨1162695600, -7200⟩, ⟨1172368800, -10800⟩, ⟨1192330800, -7200⟩,
     ⟨1203213600, -10800⟩, ⟨1224385200, -7200⟩, ⟨1234663200, -10800⟩, ⟨1255834800, -7200⟩,
     ⟨1266717600, -10800⟩, ⟨1287284400, -7200⟩, ⟨1298167200, -10800⟩, ⟨1318734000, -7200⟩,
     ⟨1330221600, -10800⟩, ⟨1350788400, -7200⟩, ⟨1361066400, -10800⟩, ⟨1382238000, -7200⟩,
     ⟨1392516000, -10800⟩, ⟨1413687600, -7200⟩, ⟨1424570400, -10800⟩, ⟨1445137200, -7200⟩,
     ⟨1456020000, -10800⟩, ⟨1476586800, -7200⟩, ⟨1487469600, -10800⟩, ⟨1508036400, -7200⟩,
     ⟨1518919200, -10800⟩, ⟨1541300400, -7200⟩, ⟨1550368800, -10800⟩]
  rule := ⟨-10800, none⟩

def chatham : Schedule where
  initial := 44028
  changes :=
    [⟨-3192437628, 44100⟩, ⟨-757426500, 45900⟩, ⟨152632800, 49500⟩, ⟨162309600, 45900⟩,
     ⟨183477600, 49500⟩, ⟨194968800, 45900⟩, ⟨215532000, 49500⟩, ⟨226418400, 45900⟩,
     ⟨246981600, 49500⟩, ⟨257868000, 45900⟩, ⟨278431200, 49500⟩, ⟨289317600, 45900⟩,
     ⟨309880800, 49500⟩, ⟨320767200, 45900⟩, ⟨341330400, 49500⟩, ⟨352216800, 45900⟩,
     ⟨372780000, 49500⟩, ⟨384271200, 45900⟩, ⟨404834400, 49500⟩, ⟨415720800, 45900⟩,
     ⟨436284000, 49500⟩, ⟨447170400, 45900⟩, ⟨467733600, 49500⟩, ⟨478620000, 45900⟩,
     ⟨499183200, 49500⟩, ⟨510069600, 45900⟩, ⟨530632800, 49500⟩, ⟨541519200, 45900⟩,
     ⟨562082400, 49500⟩, ⟨573573600, 45900⟩, ⟨594136800, 49500⟩, ⟨605023200, 45900⟩,
     ⟨623772000, 49500⟩, ⟨637682400, 45900⟩, ⟨655221600, 49500⟩, ⟨669132000, 45900⟩,
     ⟨686671200, 49500⟩, ⟨700581600, 45900⟩, ⟨718120800, 49500⟩, ⟨732636000, 45900⟩,
     ⟨749570400, 49500⟩, ⟨764085600, 45900⟩, ⟨781020000, 49500⟩, ⟨795535200, 45900⟩,
     ⟨812469600, 49500⟩, ⟨826984800, 45900⟩, ⟨844524000, 49500⟩, ⟨858434400, 45900⟩,
     ⟨875973600, 49500⟩, ⟨889884000, 45900⟩, ⟨907423200, 49500⟩, ⟨921938400, 45900⟩,
     ⟨938872800, 49500⟩, ⟨953388000, 45900⟩, ⟨970322400, 49500⟩, ⟨984837600, 45900⟩,
     ⟨1002376800, 49500⟩, ⟨1016287200, 45900⟩, ⟨1033826400, 49500⟩, ⟨1047736800, 45900⟩,
     ⟨1065276000, 49500⟩, ⟨1079791200, 45900⟩, ⟨1096725600, 49500⟩, ⟨1111240800, 45900⟩,
     ⟨1128175200, 49500⟩, ⟨1142690400, 45900⟩, ⟨1159624800, 49500⟩, ⟨1174140000, 45900⟩,
     ⟨1191074400, 49500⟩]
  rule := ⟨45900, some ⟨49500, ⟨9, 5, 0, 9900⟩, ⟨4, 1, 0, 13500⟩⟩⟩

def stJohns : Schedule where
  initial := -12652
  changes :=
    [⟨-1664130548, -9052⟩, ⟨-1650137348, -12652⟩, ⟨-1632076148, -9052⟩, ⟨-1615145348, -12652⟩,
     ⟨-1598650148, -9052⟩, ⟨-1590100148, -12652⟩, ⟨-1567286948, -9052⟩, ⟨-1551565748, -12652⟩,
     ⟨-1535837348, -9052⟩, ⟨-1520116148, -12652⟩, ⟨-1503782948, -9052⟩, ⟨-1488666548, -12652⟩,
     ⟨-1472333348, -9052⟩, ⟨-1457216948, -12652⟩, ⟨-1440883748, -9052⟩, ⟨-1425767348, -12652⟩,
     ⟨-1409434148, -9052⟩, ⟨-1394317748, -12652⟩, ⟨-1377984548, -9052⟩, ⟨-1362263348, -12652⟩,
     ⟨-1346534948, -9052⟩, ⟨-1330813748, -12652⟩, ⟨-1314480548, -9052⟩, ⟨-1299364148, -12652⟩,
     ⟨-1283030948, -9052⟩, ⟨-1267914548, -12652⟩, ⟨-1251581348, -9052⟩, ⟨-1236464948, -12652⟩,
     ⟨-1220131748, -9052⟩, ⟨-1205015348, -12652⟩, ⟨-1188682148, -9052⟩, ⟨-1172960948, -12652⟩,
     ⟨-1156627748, -9052⟩, ⟨-1141511348, -12652⟩, ⟨-1125178148, -9052⟩, ⟨-1110061748, -12652⟩,
     ⟨-1096921748, -12600⟩, ⟨-1093728600, -9000⟩, ⟨-1078612200, -12600⟩, ⟨-1061670600, -9000⟩,
     ⟨-1048973400, -12600⟩, ⟨-1030221000, -9000⟩, ⟨-1017523800, -12600⟩, ⟨-998771400, -9000⟩,
     ⟨-986074200, -12600⟩, ⟨-966717000, -9000⟩, ⟨-954624600, -12600⟩, ⟨-935267400, -9000⟩,
     ⟨-922570200, -12600⟩, ⟨-903817800, -9000⟩, ⟨-891120600, -12600⟩, ⟨-872368200, -9000⟩,
     ⟨-765401400, -12600⟩, ⟨-746044200, -9000⟩, ⟨-733347000, -12600⟩, ⟨-714594600, -9000⟩,
     ⟨-701897400, -12600⟩, ⟨-683145000, -9000⟩, ⟨-670447800, -12600⟩, ⟨-651695400, -9000⟩,
     ⟨-638998200, -12600⟩, ⟨-619641000, -9000⟩, ⟨-606943800, -12600⟩, ⟨-589401000, -9000⟩,
     ⟨-576099000, -12600⟩, ⟨-557951400, -9000⟩, ⟨-544649400, -12600⟩, ⟨-526501800, -9000⟩,
     ⟨-513199800, -12600⟩, ⟨-495052200, -9000⟩, ⟨-481750200, -12600⟩, ⟨-463602600, -9000⟩,
     ⟨-450300600, -12600⟩, ⟨-431548200, -9000⟩, ⟨-418246200, -12600⟩, ⟨-400098600, -9000⟩,
     ⟨-386796600, -12600⟩, ⟨-368649000, -9000⟩, ⟨-355347000, -12600⟩, ⟨-337199400, -9000⟩,
     ⟨-323897400, -12600⟩, ⟨-305749800, -9000⟩, ⟨-289423800, -12600⟩, ⟨-273695400, -9000⟩,
     ⟨-257974200, -12600⟩, ⟨-242245800, -9000⟩, ⟨-226524600, -12600⟩, ⟨-210796200, -9000⟩,
     ⟨-195075000, -12600⟩, ⟨-179346600, -9000⟩, ⟨-163625400, -12600⟩, ⟨-147897000, -9000⟩,
     ⟨-131571000, -12600⟩, ⟨-116447400, -9000⟩, ⟨-100121400, -12600⟩, ⟨-84393000, -9000⟩,
     ⟨-68671800, -12600⟩, ⟨-52943400, -9000⟩, ⟨-37222200, -12600⟩, ⟨-21493800, -9000⟩,
     ⟨-5772600, -12600⟩, ⟨9955800, -9000⟩, ⟨25677000, -12600⟩, ⟨41405400, -9000⟩,
     ⟨57731400, -12600⟩, ⟨73459800, -9000⟩, ⟨89181000, -12600⟩, ⟨104909400, -9000⟩,
     ⟨120630600, -12600⟩, ⟨136359000, -9000⟩, ⟨152080200, -12600⟩, ⟨167808600, -9000⟩,
     ⟨183529800, -12600⟩, ⟨199258200, -9000⟩, ⟨215584200, -12600⟩, ⟨230707800, -9000⟩,
     ⟨247033800, -12600⟩, ⟨262762200, -9000⟩, ⟨278483400, -12600⟩, ⟨294211800, -9000⟩,
     ⟨309933000, -12600⟩, ⟨325661400, -9000⟩, ⟨341382600, -12600⟩, ⟨357111000, -9000⟩,
     ⟨372832200, -12600⟩, ⟨388560600, -9000⟩, ⟨404886600, -12600⟩, ⟨420010200, -9000⟩,
     ⟨436336200, -12600⟩, ⟨452064600, -9000⟩, ⟨467785800, -12600⟩, ⟨483514200, -9000⟩,
     ⟨499235400, -12600⟩, ⟨514963800, -9000⟩, ⟨530685000, -12600⟩, ⟨544591860, -9000⟩,
     ⟨562127460, -12600⟩, ⟨576041460, -5400⟩, ⟨594178260, -12600⟩, ⟨607491060, -9000⟩,
     ⟨625631460, -12600⟩, ⟨638940660, -9000⟩, ⟨657081060, -12600⟩, ⟨670995060, -9000⟩,
     ⟨688530660, -12600⟩, ⟨702444660, -9000⟩, ⟨719980260, -12600⟩, ⟨733894260, -9000⟩,
     ⟨752034660, -12600⟩, ⟨765343860, -9000⟩, ⟨783484260, -12600⟩, ⟨796793460, -9000⟩,
     ⟨814933860, -12600⟩, ⟨828847860, -9000⟩, ⟨846383460, -12600⟩, ⟨860297460, -9000⟩,
     ⟨877833060, -12600⟩, ⟨891747060, -9000⟩, ⟨909282660, -12600⟩, ⟨923196660, -9000⟩,
     ⟨941337060, -12600⟩, ⟨954646260, -9000⟩, ⟨972786660, -12600⟩, ⟨986095860, -9000⟩,
     ⟨1004236260, -12600⟩, ⟨1018150260, -9000⟩, ⟨1035685860, -12600⟩, ⟨1049599860, -9000⟩,
     ⟨1067135460, -12600⟩, ⟨1081049460, -9000⟩, ⟨1099189860, -12600⟩, ⟨1112499060, -9000⟩,
     ⟨1130639460, -12600⟩, ⟨1143948660, -9000⟩, ⟨1162089060, -12600⟩, ⟨1173583860, -9000⟩,
     ⟨1194143460, -12600⟩, ⟨1205033460, -9000⟩, ⟨1225593060, -12600⟩, ⟨1236483060, -9000⟩,
     ⟨1257042660, -12600⟩, ⟨1268537460, -9000⟩, ⟨1289097060, -12600⟩, ⟨1299987060, -9000⟩,
     ⟨1320114600, -9000⟩]
  rule := ⟨-12600, some ⟨-9000, ⟨3, 2, 0, 7200⟩, ⟨11, 1, 0, 7200⟩⟩⟩

def monrovia : Schedule where
  initial := -2588
  changes :=
    [⟨-1604359012, -2670⟩, ⟨63593070, 0⟩]
  rule := ⟨0, none⟩

def berlin : Schedule where
  initial := 3208
  changes :=
    [⟨-2422054408, 3600⟩, ⟨-1693706400, 7200⟩, ⟨-1680483600, 3600⟩, ⟨-1663455600, 7200⟩,
     ⟨-1650150000, 3600⟩, ⟨-1632006000, 7200⟩, ⟨-1618700400, 3600⟩, ⟨-938905200, 7200⟩,
     ⟨-857257200, 3600⟩, ⟨-844556400, 7200⟩, ⟨-828226800, 3600⟩, ⟨-812502000, 7200⟩,
     ⟨-796777200, 3600⟩, ⟨-781052400, 7200⟩, ⟨-776563200, 10800⟩, ⟨-765936000, 7200⟩,
     ⟨-761180400, 3600⟩, ⟨-748479600, 7200⟩, ⟨-733273200, 3600⟩, ⟨-717631200, 7200⟩,
     ⟨-714610800, 10800⟩, ⟨-710380800, 7200⟩, ⟨-701910000, 3600⟩, ⟨-684975600, 7200⟩,
     ⟨-670460400, 3600⟩, ⟨-654130800, 7200⟩, ⟨-639010800, 3600⟩, ⟨323830800, 7200⟩,
     ⟨338950800, 3600⟩, ⟨354675600, 7200⟩, ⟨370400400, 3600⟩, ⟨386125200, 7200⟩, ⟨401850000, 3600⟩,
     ⟨417574800, 7200⟩, ⟨433299600, 3600⟩, ⟨449024400, 7200⟩, ⟨465354000, 3600⟩, ⟨481078800, 7200⟩,
     ⟨496803600, 3600⟩, ⟨512528400, 7200⟩, ⟨528253200, 3600⟩, ⟨543978000, 7200⟩, ⟨559702800, 3600⟩,
     ⟨575427600, 7200⟩, ⟨591152400, 3600⟩, ⟨606877200, 7200⟩, ⟨622602000, 3600⟩, ⟨638326800, 7200⟩,
     ⟨654656400, 3600⟩, ⟨670381200, 7200⟩, ⟨686106000, 3600⟩, ⟨701830800, 7200⟩, ⟨717555600, 3600⟩,
     ⟨733280400, 7200⟩, ⟨749005200, 3600⟩, ⟨764730000, 7200⟩, ⟨780454800, 3600⟩, ⟨796179600, 7200⟩,
     ⟨811904400, 3600⟩, ⟨828234000, 7200⟩]
  rule := ⟨3600, some ⟨7200, ⟨3, 5, 0, 7200⟩, ⟨10, 5, 0, 10800⟩⟩⟩

def troll : Schedule where
  initial := 0
  changes :=
    [⟨1108166400, 0⟩]
  rule := ⟨0, some ⟨7200, ⟨3, 5, 0, 3600⟩, ⟨10, 5, 0, 10800⟩⟩⟩

def gmtMinus12 : Schedule where
  initial := -43200
  changes := []
  rule := ⟨-43200, none⟩

def kiritimati : Schedule where
  initial := -37760
  changes :=
    [⟨-2177415040, -38400⟩, ⟨307622400, -36000⟩, ⟨788868000, 50400⟩]
  rule := ⟨50400, none⟩

/-- The known zones by name. -/
def schedules : List (String × Schedule) :=
  [("UTC", utcSchedule),
   ("Asia/Karachi", karachi),
   ("America/New_York", newYork),
   ("Europe/London", london),
   ("Asia/Kathmandu", kathmandu),
   ("Asia/Kolkata", kolkata),
   ("Australia/Lord_Howe", lordHowe),
   ("Pacific/Apia", apia),
   ("America/Sao_Paulo", saoPaulo),
   ("Pacific/Chatham", chatham),
   ("America/St_Johns", stJohns),
   ("Africa/Monrovia", monrovia),
   ("Europe/Berlin", berlin),
   ("Antarctica/Troll", troll),
   ("Etc/GMT+12", gmtMinus12),
   ("Pacific/Kiritimati", kiritimati)]

/-- The zone of a name; names are exact, case and all. -/
def named? (name : String) : Option Zone := (schedules.lookup name).map ofSchedule

end Timespan.Zone
