import RadioDriver.Json.Basic

namespace RadioDriver.Builtin.DeviceClasses

def genericRemote : Json :=
  .object [
    ("class", .string "other"),
    ("pair", .object [
      ("viewOrder", .array [
        .string "generic_imitate", .string "generic_test_remote", .string "generic_done"]),
      ("viewOptions", .object [
        ("generic_imitate", .object [("title", .string "pair.begin")]),
        ("generic_test_remote", .object [("title", .string "pair.test_remote")]),
        ("generic_done", .object [("title", .string "done!")])])])]

def genericSwitch : Json :=
  .object [
    ("capabilities", .array [.string "onoff"]),
    ("pair", .object [
      ("viewOrder", .array [
        .string "generic_choice",
        .string "generic_imitate",
        .string "generic_test_switch_2",
        .string "generic_program",
        .string "generic_test_switch",
        .string "generic_done"]),
      ("viewOptions", .object [
        ("generic_choice", .object [
          ("title", .string "pair.begin"),
          ("buttons", .array [
            .object [("name", .string "pair.copy_remote"), ("view", .string "generic_imitate")],
            .object [
              ("name", .string "pair.create_signal"),
              ("view", .string "generic_program")]])]),
        ("generic_imitate", .object [("title", .string "pair.begin")]),
        ("generic_test_switch_2", .object [
          ("title", .string "pair.test_remote"),
          ("next", .string "generic_done"),
          ("initWithDeviceData", .bool true),
          ("sendToggleOnInit", .bool false)]),
        ("generic_program", .object [("title", .string "pair.begin"),
          ("previous", .string "generic_choice")]),
        ("generic_test_switch", .object [("title", .string "pair.test_remote")]),
        ("generic_done", .object [("title", .string "done!")])])])]

def genericToggle : Json :=
  .object [
    ("extends", .string "generic_switch"),
    ("capabilities", .array []),
    ("pair", .object [
      ("viewOrder", .array [
        .string "generic_choice",
        .string "generic_imitate",
        .string "generic_test_button_2",
        .string "generic_program",
        .string "generic_test_button",
        .string "generic_done"]),
      ("viewOptions", .object [
        ("generic_program", .object [("title", .string "pair.begin"),
          ("previous", .string "generic_choice")]),
        ("generic_test_button_2", .object [
          ("next", .string "generic_done"),
          ("initWithDeviceData", .bool true),
          ("sendToggleOnInit", .bool false)])])])]

def genericSocket : Json :=
  .object [
    ("extends", .string "generic_switch"),
    ("class", .string "socket"),
    ("pair", .object [
      ("viewOrder", .array [
        .string "generic_choice",
        .string "generic_imitate",
        .string "generic_test_switch_2",
        .string "generic_choose_slave_2",
        .string "generic_program",
        .string "generic_test_switch",
        .string "generic_choose_slave",
        .string "generic_done"]),
      ("viewOptions", .object [
        ("generic_test_switch_2", .object [("next", .bool true)]),
        ("generic_choose_slave_2", .object [("next", .string "generic_done")])])])]

def genericDipswitchSocket : Json :=
  .object [
    ("extends", .string "generic_switch"),
    ("class", .string "socket"),
    ("pair", .object [
      ("viewOrder", .array [
        .string "generic_choice",
        .string "generic_imitate",
        .string "generic_test_switch_2",
        .string "generic_choose_slave_2",
        .string "generic_dipswitch",
        .string "generic_test_switch",
        .string "generic_choose_slave",
        .string "generic_done"]),
      ("viewOptions", .object [
        ("generic_choice", .object [
          ("title", .string "pair.begin"),
          ("buttons", .array [
            .object [("name", .string "pair.copy_remote"), ("view", .string "generic_imitate")],
            .object [
              ("name", .string "pair.set_dipswitch"),
              ("view", .string "generic_dipswitch")]])]),
        ("generic_dipswitch", .object [("title", .string "pair.dipswitch")])])])]

def genericSensor : Json :=
  .object [
    ("class", .string "sensor"),
    ("pair", .object [
      ("viewOrder", .array [
        .string "generic_imitate", .string "generic_test_remote", .string "generic_done"]),
      ("viewOptions", .object [
        ("generic_imitate", .object [("title", .string "pair.begin")]),
        ("generic_test_remote", .object [("title", .string "pair.test_remote")]),
        ("generic_done", .object [("title", .string "done!")])])])]

def all : Fields Json :=
  [("generic_remote", genericRemote),
    ("generic_switch", genericSwitch),
    ("generic_toggle", genericToggle),
    ("generic_socket", genericSocket),
    ("generic_dipswitch_socket", genericDipswitchSocket),
    ("generic_sensor", genericSensor)]

end RadioDriver.Builtin.DeviceClasses
