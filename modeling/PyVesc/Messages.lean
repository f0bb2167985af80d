import PyVesc.MessageBase

/-!
# The messages of the package

The classes that `messages/getters.py` and `messages/setters.py` declare, with the commands of
`messages/Vedder_BLDC_Commands.py` that they use, and the registry that holds them.
-/

namespace PyVesc

inductive VedderCmd where
  | commFwVersion | commJumpToBootloader | commEraseNewApp | commWriteNewAppData | commGetValues
  | commSetDuty | commSetCurrent | commSetCurrentBrake | commSetRpm | commSetPos
  | commSetHandbrake | commSetDetect | commSetServoPos | commSetMcconf | commGetMcconf
  | commSetAppconf | commGetAppconf | commTerminalCmd | commPrint | commRotorPosition | commReboot
  | commAlive | commWriteNewAppDataLzo
  deriving DecidableEq, Repr

namespace VedderCmd

def value : VedderCmd → ℕ
  | .commFwVersion => 0
  | .commJumpToBootloader => 1
  | .commEraseNewApp => 2
  | .commWriteNewAppData => 3
  | .commGetValues => 4
  | .commSetDuty => 5
  | .commSetCurrent => 6
  | .commSetCurrentBrake => 7
  | .commSetRpm => 8
  | .commSetPos => 9
  | .commSetHandbrake => 10
  | .commSetDetect => 11
  | .commSetServoPos => 12
  | .commSetMcconf => 13
  | .commGetMcconf => 14
  | .commSetAppconf => 16
  | .commGetAppconf => 17
  | .commTerminalCmd => 20
  | .commPrint => 21
  | .commRotorPosition => 22
  | .commReboot => 29
  | .commAlive => 30
  | .commWriteNewAppDataLzo => 81

end VedderCmd

namespace Messages

def getVersion : MessageClass where
  id := VedderCmd.value .commFwVersion
  sendFields := none
  recvFields := some [
    ⟨"fw_version_major", .item (.int .b), some 0⟩, ⟨"fw_version_minor", .item (.int .b), some 0⟩]

def getMotorConfig : MessageClass where
  id := VedderCmd.value .commGetMcconf
  sendFields := none
  recvFields := some [⟨"mcconf", .s, some (-1)⟩]

def getAppConfig : MessageClass where
  id := VedderCmd.value .commGetAppconf
  sendFields := none
  recvFields := some [⟨"appconf", .s, some (-1)⟩]

def getValues : MessageClass where
  id := VedderCmd.value .commGetValues
  sendFields := none
  recvFields := some [
    ⟨"temp_fet", .item (.int .h), some 10⟩, ⟨"temp_motor", .item (.int .h), some 10⟩,
    ⟨"avg_motor_current", .item (.int .i), some 100⟩,
    ⟨"avg_input_current", .item (.int .i), some 100⟩, ⟨"avg_id", .item (.int .i), some 100⟩,
    ⟨"avg_iq", .item (.int .i), some 100⟩, ⟨"duty_cycle_now", .item (.int .h), some 1000⟩,
    ⟨"rpm", .item (.int .i), some 1⟩, ⟨"v_in", .item (.int .h), some 10⟩,
    ⟨"amp_hours", .item (.int .i), some 10000⟩, ⟨"amp_hours_charged", .item (.int .i), some 10000⟩,
    ⟨"watt_hours", .item (.int .i), some 10000⟩,
    ⟨"watt_hours_charged", .item (.int .i), some 10000⟩, ⟨"tachometer", .item (.int .i), some 1⟩,
    ⟨"tachometer_abs", .item (.int .i), some 1⟩, ⟨"mc_fault_code", .item .char, some 0⟩,
    ⟨"pid_pos_now", .item (.int .i), some 1000000⟩, ⟨"app_controller_id", .item .char, some 0⟩,
    ⟨"temp_mos1", .item (.int .h), some 10⟩, ⟨"temp_mos2", .item (.int .h), some 10⟩,
    ⟨"temp_mos3", .item (.int .h), some 10⟩, ⟨"avg_vd", .item (.int .i), some 1000⟩,
    ⟨"avg_vq", .item (.int .i), some 1000⟩]

def getRotorPosition : MessageClass where
  id := VedderCmd.value .commRotorPosition
  sendFields := none
  recvFields := some [⟨"rotor_pos", .item (.int .i), some 100000⟩]

def setDutyCycle : MessageClass where
  id := VedderCmd.value .commSetDuty
  sendFields := some [⟨"duty_cycle", .item (.int .i), some 100000⟩]
  recvFields := none

def setMotorConfig : MessageClass where
  id := VedderCmd.value .commSetMcconf
  sendFields := some [⟨"mcconf", .s, some (-1)⟩]
  recvFields := none

def setAppConfig : MessageClass where
  id := VedderCmd.value .commSetAppconf
  sendFields := some [⟨"appconf", .s, some (-1)⟩]
  recvFields := none

def setRPM : MessageClass where
  id := VedderCmd.value .commSetRpm
  sendFields := some [⟨"rpm", .item (.int .i), none⟩]
  recvFields := none

def setCurrent : MessageClass where
  id := VedderCmd.value .commSetCurrent
  sendFields := some [⟨"current", .item (.int .i), some 1000⟩]
  recvFields := none

def setCurrentBrake : MessageClass where
  id := VedderCmd.value .commSetCurrentBrake
  sendFields := some [⟨"current_brake", .item (.int .i), some 1000⟩]
  recvFields := none

def setHandbrake : MessageClass where
  id := VedderCmd.value .commSetHandbrake
  sendFields := some [⟨"current", .item (.int .i), some 1000⟩]
  recvFields := none

def setPosition : MessageClass where
  id := VedderCmd.value .commSetPos
  sendFields := some [⟨"pos", .item (.int .i), some 1000000⟩]
  recvFields := none

def setRotorPositionMode : MessageClass where
  id := VedderCmd.value .commSetDetect
  sendFields := some [⟨"pos_mode", .item (.int .b), none⟩]
  recvFields := none

def setServoPosition : MessageClass where
  id := VedderCmd.value .commSetServoPos
  sendFields := some [⟨"servo_pos", .item (.int .h), some 1000⟩]
  recvFields := none

def reboot : MessageClass where
  id := VedderCmd.value .commReboot
  sendFields := some []
  recvFields := none

def alive : MessageClass where
  id := VedderCmd.value .commAlive
  sendFields := some []
  recvFields := none

def eraseNewApp : MessageClass where
  id := VedderCmd.value .commEraseNewApp
  sendFields := some [⟨"data", .item (.int .I), none⟩]
  recvFields := some [⟨"erase_new_app_result", .item (.int .b), some 0⟩]

def writeNewAppData : MessageClass where
  id := VedderCmd.value .commWriteNewAppData
  sendFields := some [⟨"offset", .item (.int .I), none⟩, ⟨"data", .item (.bytes 384), none⟩]
  recvFields := some [
    ⟨"write_new_app_result", .item .bool, some 0⟩, ⟨"new_app_offset", .item (.int .I), some 0⟩]

def writeNewAppDataLZO : MessageClass where
  id := VedderCmd.value .commWriteNewAppDataLzo
  sendFields := some [⟨"offset", .item (.int .I), none⟩, ⟨"data", .item (.bytes 384), none⟩]
  recvFields := some [
    ⟨"write_new_app_result", .item .bool, some 0⟩, ⟨"new_app_offset", .item (.int .I), some 0⟩]

def jumpToBootloader : MessageClass where
  id := VedderCmd.value .commJumpToBootloader
  sendFields := some []
  recvFields := some []

def terminalCmd : MessageClass where
  id := VedderCmd.value .commTerminalCmd
  sendFields := some [⟨"cmd", .s, none⟩]
  recvFields := some [⟨"terminal_cmd_result", .s, none⟩]

def terminalPrint : MessageClass where
  id := VedderCmd.value .commPrint
  sendFields := none
  recvFields := some [⟨"msg", .s, none⟩]

/-- Every class of the package, in the order of their declarations. -/
def all : List MessageClass :=
  [getVersion, getMotorConfig, getAppConfig, getValues, getRotorPosition, setDutyCycle,
    setMotorConfig, setAppConfig, setRPM, setCurrent, setCurrentBrake, setHandbrake, setPosition,
    setRotorPositionMode, setServoPosition, reboot, alive, eraseNewApp, writeNewAppData,
    writeNewAppDataLZO, jumpToBootloader, terminalCmd, terminalPrint]

def registry : Registry := all.map fun cls => (cls.id, cls)

end Messages

end PyVesc
