import RadioDriver.Json.Basic

namespace RadioDriver.Builtin.Views

def genericInfo : Json :=
  .object [
    ("template", .string "./pair/info.html"),
    ("options", .object [
      ("title", .object [("required", .bool true)]),
      ("svg", .object [("required", .bool false)]),
      ("body", .object [("default", .string "pair.info.body")]),
      ("svgWidth", .object [("default", .string "80vw")]),
      ("svgHeight", .object [("default", .string "70vh")]),
      ("next", .bool true),
      ("previous", .bool true)])]

def genericImitate : Json :=
  .object [
    ("extends", .string "generic_test_remote"),
    ("template", .string "./pair/imitate.html"),
    ("options", .object [
      ("body", .object [("default", .string "pair.imitate.body")]),
      ("next", .bool false)])]

def genericDipswitch : Json :=
  .object [
    ("template", .string "./pair/dipswitch.html"),
    ("options", .object [
      ("title", .object [("required", .bool true)]),
      ("body", .object [("default", .string "pair.dipswitch.body")]),
      ("dipswitchList", .object [
        ("default", .array [
          .string "1",
          .string "2",
          .string "3",
          .string "4",
          .string "5",
          .array [.string "A", .string "B", .string "C", .string "D", .string "E"]])]),
      ("svgWidth", .object [("default", .string "80vw")]),
      ("svgHeight", .object [("default", .string "70vh")]),
      ("previous", .bool true),
      ("next", .bool true)])]

def genericTestRemote : Json :=
  .object [
    ("template", .string "./pair/test_remote.html"),
    ("options", .object [
      ("title", .object [("required", .bool true)]),
      ("svg", .object [("required", .bool true)]),
      ("body", .object [("default", .string "pair.test.body")]),
      ("svgWidth", .object [("default", .string "80vw")]),
      ("svgHeight", .object [("default", .string "70vh")]),
      ("initWithDeviceData", .object [("default", .bool false)]),
      ("previous", .bool true),
      ("next", .bool true)])]

def genericProgram : Json :=
  .object [
    ("extends", .string "generic_test_remote"),
    ("template", .string "./pair/program.html"),
    ("options", .object [("body", .object [("default", .string "pair.program.body")])])]

def genericTestSwitch : Json :=
  .object [
    ("extends", .string "generic_test_remote"),
    ("template", .string "./pair/test_switch.html"),
    ("options", .object [
      ("svg", .object [("default", .string "../../assets/433_generator/images/light.svg")]),
      ("body", .object [("default", .string "pair.test_switch.body")]),
      ("sendToggleOnInit", .object [("default", .bool true)])])]

def genericTestButton : Json :=
  .object [
    ("extends", .string "generic_test_switch"),
    ("template", .string "./pair/test_button.html"),
    ("options", .object [
      ("title", .object [("default", .string "test_button")]),
      ("body", .object [("default", .string "pair.test_button.body")]),
      ("buttonLabel", .object [("default", .string "test")])])]

def genericTestButton2 : Json :=
  .object [("extends", .string "generic_test_button")]

def genericTestSwitch2 : Json :=
  .object [("extends", .string "generic_test_switch")]

def genericDone : Json :=
  .object [
    ("template", .string "./pair/done.html"),
    ("options", .object [("title", .object [("required", .bool true)])])]

def genericChoice : Json :=
  .object [
    ("template", .string "./pair/choice.html"),
    ("options", .object [
      ("title", .object [("required", .bool true)]),
      ("buttons", .object [
        ("default", .array [
          .object [("name", .string "my.localized.name"), ("view", .string "otherView")]])]),
      ("svg", .object [("default", .string "<svg></svg>")]),
      ("body", .object [("default", .string "pair.choice.body")]),
      ("svgWidth", .object [("default", .string "80vw")]),
      ("svgHeight", .object [("default", .string "65vh")])])]

def genericChooseSlave : Json :=
  .object [
    ("template", .string "choose_slave"),
    ("options", .object [("previous", .bool true), ("next", .bool true)])]

def genericChooseSlave2 : Json :=
  .object [("extends", .string "generic_choose_slave")]

def all : Fields Json :=
  [("generic_info", genericInfo),
    ("generic_imitate", genericImitate),
    ("generic_dipswitch", genericDipswitch),
    ("generic_test_remote", genericTestRemote),
    ("generic_program", genericProgram),
    ("generic_test_switch", genericTestSwitch),
    ("generic_test_button", genericTestButton),
    ("generic_test_button_2", genericTestButton2),
    ("generic_test_switch_2", genericTestSwitch2),
    ("generic_done", genericDone),
    ("generic_choice", genericChoice),
    ("generic_choose_slave", genericChooseSlave),
    ("generic_choose_slave_2", genericChooseSlave2)]

end RadioDriver.Builtin.Views
