import RadioDriver.Json.Basic

namespace RadioDriver.Builtin.Dutch

def viewChoice : Json :=
  .object [
    ("title", .string "Kies een van de volgende opties"),
    ("body", .string "Klik op een van de opties om verder te gaan."),
    ("buttons", .object [
      ("copy", .string "Kopieer afstandsbediening"),
      ("generate", .string "Genereer signaal")])]

def viewImitate : Json :=
  .object [
    ("title", .string "Kopieer het signaal van je afstandsbediening"),
    ("body",
      .string "Druk op de knop op je afstandsbediening waarop je apparaat geprogrammeerd is.")]

def viewProgram : Json :=
  .object [
    ("title", .string "Programmeer je apparaat met Homey"),
    ("body",
      .string ("Zet je apparaat in programmeer modus en klik op volgende om je apparaat met " ++
        "Homey te verbinden."))]

def viewCodewheel : Json :=
  .object [
    ("title", .string "Configureer de apparaatcode"),
    ("body",
      .string ("Klik op de karakters op de bovenstaande lettercodeshijf of pas de " ++
        "lettercodeshijf op je apparaat aan zodat deze gelijk aan elkaar zijn, klik daarna op " ++
        "volgende."))]

def viewDipswitch : Json :=
  .object [
    ("title", .string "Stel de dipswitches van je apparaat in"),
    ("body",
      .string ("Klik op de bovenstaande dipswitches om ze gelijk aan de dipswitches van je " ++
        "apparaat in te stellen, klik daarna op volgende."))]

def viewTestButton : Json :=
  .object [
    ("title", .string "Test je apparaat"),
    ("body",
      .string ("Gebruik de bovenstaande knop om je apparaat te testen. Klik op volgende om " ++
        "verder te gaan."))]

def viewTestButton2 : Json :=
  .object [
    ("body",
      .string ("Gebruik je afstandsbediening of te bovenstaande knop om je apparaat te testen. " ++
        "Klik op volgende om verder te gaan."))]

def viewTestSwitch : Json :=
  .object [
    ("title", .string "Test je apparaat"),
    ("body",
      .string ("Gebruik te bovenstaande switch om je apparaat te testen. Klik op volgende om " ++
        "verder te gaan."))]

def viewTestSwitch2 : Json :=
  .object [
    ("body",
      .string ("Gebruik je afstandsbediening of de bovenstaande switch om je apparaat te " ++
        "testen. Klik op volgende om verder te gaan."))]

def viewTestRemote : Json :=
  .object [
    ("title", .string "Test je apparaat"),
    ("body",
      .string ("Druk op een willekeurige knop op je afstandsbediening of op de knoppen in het " ++
        "bovenstaande plaatje om het signaal te testen. Klik op volgende om verder te gaan."))]

def viewDone : Json :=
  .object [("title", .string "Apparaat wordt toegevoegd!")]

def classRemote : Json :=
  .object [
    ("views", .object [
      ("generic_imitate", .object [
        ("title", .string "Identificeer je afstandsbediening"),
        ("body",
          .string "Klik op een willekeurige knop op je afstandsbediening om hem te koppelen.")])])]

def classWallSwitch : Json :=
  .object [
    ("views", .object [
      ("generic_imitate", .object [
        ("title", .string "Identificeer je wandschakelaar"),
        ("body",
          .string "Klik op een willekeurige knop op je wandschakelaar om hem te koppelen.")]),
      ("generic_test_remote", .object [
        ("title", .string "Test je wandschakelaar"),
        ("body",
          .string ("Druk op een willekeurige knop op je wandschakelaar of op de knoppen in het " ++
            "bovenstaande plaatje om het signaal te testen. Klik op volgende om verder te " ++
            "gaan"))])])]

def classSwitch : Json :=
  .object [
    ("views", .object [
      ("generic_choice", .object [
        ("title", .string "Kopieer je afstandsbediening of programmeer met Homey"),
        ("body",
          .string ("Kies of je het signaal van een gekoppelde afstandsbediening wil kopiëren of " ++
            "dat je het apparaat wil programmeren met een nieuw signaal van Homey.")),
        ("buttons", .object [
          ("generic_imitate", .string "Kopieer je afstandsbediening"),
          ("generic_program", .string "Genereer een nieuw signaal")])])])]

def classCodewheelSwitch : Json :=
  .object [
    ("views", .object [
      ("generic_choice", .object [
        ("body",
          .string ("Kies of je het signaal van een gekoppelde afstandsbediening wil kopiëren of " ++
            "dat je handmatig de lettercodeshijf wil instellen.")),
        ("buttons", .object [
          ("generic_codewheel", .string "Handmatig lettercodeshijf instellen")])])])]

def classDipswitchSocket : Json :=
  .object [
    ("views", .object [
      ("generic_info", .object [
        ("title", .string "Vind de dipswitches op je contactdoos"),
        ("body",
          .string ("Vind de dipswitches op je contactdoos zoals hierboven aangegeven, klik " ++
            "daarna op volgende."))]),
      ("generic_choice", .object [
        ("title", .string "Kopieer je afstandsbediening of stel de dipswitches handmatig in"),
        ("body",
          .string ("Kies of je het signaal van een gekoppelde afstandsbediening wil kopiëren of " ++
            "dat je de dipswitches handmatig wil instellen.")),
        ("buttons", .object [
          ("generic_imitate", .string "Kopieer je afstandsbediening"),
          ("generic_dipswitch", .string "Stel de dipswitches in")])])])]

def classSocket : Json :=
  .object [
    ("views", .object [
      ("generic_program", .object [
        ("title", .string "Zet de contactdoos in programmeer modus"),
        ("body",
          .string ("Houd de programmeer knop van je contactdoos een paar seconden ingehouden om " ++
            "hem in programeer modus te zetten. Klik daarna op volgende."))]),
      ("generic_imitate", .object [
        ("title", .string "Kopieer het signaal van je afstandsbediening"),
        ("body",
          .string "Druk op de knop van de afstandsbediening waarmee het apparaat gekoppeld is.")]),
      ("generic_test_switch", .object [
        ("title", .string "Test je contactdoos"),
        ("body",
          .string ("Gebruik de bovenstaande knop om je contactdoos te testen. Klik op volgende " ++
            "om verder te gaan."))]),
      ("generic_test_switch_2", .object [
        ("body",
          .string ("Gebruik je afstandsbediening of de bovenstaande knop om je contactdoos te " ++
            "testen. Klik op volgende om verder te gaan."))])])]

def runtimeGeneric : Json :=
  .object [
    ("on", .string "Aan"),
    ("off", .string "Uit"),
    ("left", .string "Links"),
    ("middle", .string "Midden"),
    ("right", .string "Rechts"),
    ("up", .string "Up"),
    ("down", .string "Down"),
    ("button_pressed", .string "Knop is ingedrukt"),
    ("buttons", .object [
      ("1", .string "Knop 1"),
      ("2", .string "Knop 2"),
      ("3", .string "Knop 3"),
      ("4", .string "Knop 4"),
      ("5", .string "Knop 5"),
      ("6", .string "Knop 6"),
      ("7", .string "Knop 7"),
      ("8", .string "Knop 8"),
      ("9", .string "Knop 9"),
      ("10", .string "Knop 10"),
      ("11", .string "Knop 11"),
      ("12", .string "Knop 12"),
      ("13", .string "Knop 13"),
      ("14", .string "Knop 14"),
      ("15", .string "Knop 15"),
      ("16", .string "Knop 16"),
      ("A", .string "Knop A"),
      ("B", .string "Knop B"),
      ("C", .string "Knop C"),
      ("D", .string "Knop D"),
      ("E", .string "Knop E"),
      ("F", .string "Knop F"),
      ("G", .string "Groep Knop"),
      ("all", .string "All Knop"),
      ("bright", .string "Fel Knop"),
      ("dim", .string "Gedimt Knop"),
      ("left", .string "Linker Knop"),
      ("middle", .string "Middelste Knop"),
      ("right", .string "Rechter Knop")]),
    ("channels", .object [
      ("1", .string "Kanaal 1"),
      ("2", .string "Kanaal 2"),
      ("3", .string "Kanaal 3"),
      ("4", .string "Kanaal 4"),
      ("5", .string "Kanaal 5"),
      ("I", .string "Kanaal I"),
      ("II", .string "Kanaal II"),
      ("III", .string "Kanaal III"),
      ("IV", .string "Kanaal IV"),
      ("V", .string "Kanaal V"),
      ("A", .string "Kanaal A"),
      ("B", .string "Kanaal B"),
      ("C", .string "Kanaal C"),
      ("D", .string "Kanaal D"),
      ("E", .string "Kanaal E"),
      ("F", .string "Kanaal F")]),
    ("units", .object [
      ("1", .string "Unit 1"),
      ("2", .string "Unit 2"),
      ("3", .string "Unit 3"),
      ("4", .string "Unit 4"),
      ("5", .string "Unit 5"),
      ("6", .string "Unit 6"),
      ("7", .string "Unit 7"),
      ("8", .string "Unit 8"),
      ("9", .string "Unit 9"),
      ("10", .string "Unit 10"),
      ("11", .string "Unit 11"),
      ("12", .string "Unit 12"),
      ("13", .string "Unit 13"),
      ("14", .string "Unit 14"),
      ("15", .string "Unit 15"),
      ("16", .string "Unit 16")])]

def runtimeError : Json :=
  .object [
    ("device_exists", .string "Apparaat is al gekoppeld met Homey."),
    ("no_device",
      .string "Er is geen apparaat ingesteld. Sluit de pairing wizard en probeer opnieuw."),
    ("no_settings", .string "Geen instelling object. Probeer aub opnieuw."),
    ("invalid_device",
      .string ("Het apparaat dat is aangemaakt is incorrect. Verwijder dit apparaat en probeer " ++
        "opnieuw.")),
    ("cannot_register_signal",
      .string ("Signaal kon niet geregistreerd worden. Reset Homey aub door de stroom voor 10 " ++
        "seconden te onderbreken en probeer vervolgens opnieuw."))]

def texts : Fields Json :=
  [("views", .object [
      ("generic_choice", viewChoice),
      ("generic_imitate", viewImitate),
      ("generic_program", viewProgram),
      ("generic_codewheel", viewCodewheel),
      ("generic_dipswitch", viewDipswitch),
      ("generic_test_button", viewTestButton),
      ("generic_test_button_2", viewTestButton2),
      ("generic_test_switch", viewTestSwitch),
      ("generic_test_switch_2", viewTestSwitch2),
      ("generic_test_remote", viewTestRemote),
      ("generic_done", viewDone)]),
    ("deviceClasses", .object [
      ("generic_remote", classRemote),
      ("generic_wall_switch", classWallSwitch),
      ("generic_switch", classSwitch),
      ("generic_codewheel_switch", classCodewheelSwitch),
      ("generic_dipswitch_socket", classDipswitchSocket),
      ("generic_socket", classSocket)]),
    ("433_generator", .object [
      ("generic", runtimeGeneric),
      ("error", runtimeError)])]

end RadioDriver.Builtin.Dutch
