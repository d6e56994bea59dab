import RadioDriver.Json.Basic

namespace RadioDriver.Builtin.English

def viewChoice : Json :=
  .object [
    ("title", .string "Choose one of the following options"),
    ("body", .string "Click one of the buttons above to proceed."),
    ("buttons", .object [("copy", .string "Copy a remote"),
      ("generate", .string "Generate signal")])]

def viewImitate : Json :=
  .object [
    ("title", .string "Copy your remote signal"),
    ("body", .string "Click the button on your remote that is paired to your device.")]

def viewProgram : Json :=
  .object [
    ("title", .string "Pair your device with Homey"),
    ("body",
      .string "Put your device in pairing mode, then click next to pair your device with Homey.")]

def viewCodewheel : Json :=
  .object [
    ("title", .string "Configure your device code"),
    ("body",
      .string ("Click the characters on the code wheel above or configure the wheels on the " ++
        "device so they match, then click next."))]

def viewDipswitch : Json :=
  .object [
    ("title", .string "Set dipswitches of device"),
    ("body",
      .string ("Click on the dipswitches above to put them in the same arrangement as those of " ++
        "your device, then click next."))]

def viewTestButton : Json :=
  .object [
    ("title", .string "Test your device"),
    ("body", .string "Use the button above to test your device. Press next to continue.")]

def viewTestButton2 : Json :=
  .object [
    ("body",
      .string "Use your remote or the button above to test your device. Press next to continue.")]

def viewTestSwitch : Json :=
  .object [
    ("title", .string "Test your device"),
    ("body", .string "Use the switch above to test your device. Press next to continue.")]

def viewTestSwitch2 : Json :=
  .object [
    ("body",
      .string "Use your remote or the switch above to test your device. Press next to continue.")]

def viewTestRemote : Json :=
  .object [
    ("title", .string "Test your remote"),
    ("body",
      .string ("Press a random button on your remote or click the button in the image above to " ++
        "test the signal. Press next to continue."))]

def viewDone : Json :=
  .object [("title", .string "Adding device!")]

def classRemote : Json :=
  .object [
    ("views", .object [
      ("generic_imitate", .object [
        ("title", .string "Identify your remote"),
        ("body", .string "Click a button on your remote to pair it.")])])]

def classWallSwitch : Json :=
  .object [
    ("views", .object [
      ("generic_imitate", .object [
        ("title", .string "Identify your wall switch"),
        ("body", .string "Press a random button on your wall switch to pair it.")]),
      ("generic_test_remote", .object [
        ("title", .string "Test your wall switch"),
        ("body",
          .string ("Press a random button on your wall switch or click the buttons in the image " ++
            "above to test the signal. Press next to continue."))])])]

def classSwitch : Json :=
  .object [
    ("views", .object [
      ("generic_choice", .object [
        ("title", .string "Copy signal from remote or pair device with Homey"),
        ("body",
          .string ("Choose if you want to copy an existing signal from a paired remote or if " ++
            "you want to generate a new signal to pair this device.")),
        ("buttons", .object [
          ("generic_imitate", .string "Copy a paired remote"),
          ("generic_program", .string "Generate a new signal")])])])]

def classCodewheelSwitch : Json :=
  .object [
    ("views", .object [
      ("generic_choice", .object [
        ("body",
          .string ("Choose if you want to copy an existing signal from a paired remote or if " ++
            "you want manually set the codewheels to pair this device.")),
        ("buttons", .object [("generic_codewheel", .string "Manually set codewheels")])])])]

def classDipswitchSocket : Json :=
  .object [
    ("views", .object [
      ("generic_info", .object [
        ("title", .string "Locate the dipswitches on your socket"),
        ("body",
          .string "Locate the dipswitches on your socket like displayed above, then click next.")]),
      ("generic_choice", .object [
        ("title", .string "Copy signal from remote or set the dipswitches manually"),
        ("body",
          .string ("Choose if you want to copy an existing signal from a paired remote or if " ++
            "you want to set the dipswitches of the socket manually.")),
        ("buttons", .object [
          ("generic_imitate", .string "Copy a paired remote"),
          ("generic_dipswitch", .string "Set the dipswitches")])])])]

def classSocket : Json :=
  .object [
    ("views", .object [
      ("generic_program", .object [
        ("title", .string "Put the socket in pairing mode"),
        ("body",
          .string ("Press the program button on your socket to put it in pairing mode, then " ++
            "click next."))]),
      ("generic_imitate", .object [
        ("title", .string "Copy your remote signal"),
        ("body", .string "Press the button that is paired to your socket.")]),
      ("generic_test_switch", .object [
        ("title", .string "Test your socket"),
        ("body", .string "Use the switch above to test your socket. Press next to continue.")]),
      ("generic_test_switch_2", .object [
        ("body",
          .string ("Use your remote or the switch above to test your socket. Press next to " ++
            "continue."))])])]

def runtimeGeneric : Json :=
  .object [
    ("on", .string "On"),
    ("off", .string "Off"),
    ("left", .string "Left"),
    ("middle", .string "Middle"),
    ("right", .string "Right"),
    ("up", .string "Up"),
    ("down", .string "Down"),
    ("button_pressed", .string "Button is pressed"),
    ("buttons", .object [
      ("1", .string "Button 1"),
      ("2", .string "Button 2"),
      ("3", .string "Button 3"),
      ("4", .string "Button 4"),
      ("5", .string "Button 5"),
      ("A", .string "Button A"),
      ("B", .string "Button B"),
      ("C", .string "Button C"),
      ("D", .string "Button D"),
      ("E", .string "Button E"),
      ("G", .string "Group Button"),
      ("all", .string "All Button"),
      ("bright", .string "Bright Button"),
      ("dim", .string "Dim Button"),
      ("left", .string "Left Button"),
      ("middle", .string "Middle Button"),
      ("right", .string "Right Button")]),
    ("channels", .object [
      ("1", .string "Channel 1"),
      ("2", .string "Channel 2"),
      ("3", .string "Channel 3"),
      ("4", .string "Channel 4"),
      ("5", .string "Channel 5"),
      ("I", .string "Channel I"),
      ("II", .string "Channel II"),
      ("III", .string "Channel III"),
      ("IV", .string "Channel IV"),
      ("V", .string "Channel V"),
      ("A", .string "Channel A"),
      ("B", .string "Channel B"),
      ("C", .string "Channel C"),
      ("D", .string "Channel D"),
      ("E", .string "Channel E")])]

def runtimeError : Json :=
  .object [
    ("device_exists", .string "This device is already paired with Homey."),
    ("no_device",
      .string "No device set to pair. Please close the pairing wizard and try again."),
    ("no_settings", .string "No settings object. Please try again."),
    ("invalid_device", .string "The device that was created is invalid. Please try again.")]

def texts : Fields Json :=
  [("views", .object [
      ("generic_choice", viewChoice),
      ("generic_imitate", viewImitate),
      ("generic_program", viewProgram),
      ("generic_codewheel", viewCodewheel),
      ("generic_dipswitch", viewDipswitch),
      ("generic_test_button", viewTestButton),
      ("generic_test_button_2", viewTestButton2),
      ("generic_test_switch", viewTestSwitch),
      ("generic_test_switch_2", viewTestSwitch2),
      ("generic_test_remote", viewTestRemote),
      ("generic_done", viewDone)]),
    ("deviceClasses", .object [
      ("generic_remote", classRemote),
      ("generic_wall_switch", classWallSwitch),
      ("generic_switch", classSwitch),
      ("generic_codewheel_switch", classCodewheelSwitch),
      ("generic_dipswitch_socket", classDipswitchSocket),
      ("generic_socket", classSocket)]),
    ("433_generator", .object [
      ("generic", runtimeGeneric),
      ("error", runtimeError)])]

end RadioDriver.Builtin.English
