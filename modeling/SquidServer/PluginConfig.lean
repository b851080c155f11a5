import SquidServer.CInput

namespace SquidServer.PluginConfig
open CText CInput
set_option autoImplicit true

abbrev serverPluginPortMin : UInt8 := 1
abbrev serverPluginPortMax : UInt8 := 15

abbrev serverPluginPathMax : Nat := 512
abbrev serverPluginMappingMax : Nat := 15
abbrev serverSerialDevicePathMax : Nat := 64

abbrev serverSquidPayloadMin : UInt8 := 16
abbrev serverSquidPayloadMax : UInt8 := 112

/-- The text in a buffer of `size` bytes, one of which is for its NUL. -/
abbrev Buffer (size : Nat) := { text : List UInt8 // text.length < size }

structure ServerPluginMapping where
  portNumber : UInt8
  pluginPath : Buffer serverPluginPathMax
deriving DecidableEq

/-- The mappings in use; `mapping_count` is their number. -/
structure ServerPluginConfigFile where
  systemPluginPath : Buffer serverPluginPathMax
  mappings : List ServerPluginMapping
  serialDevice : Buffer serverSerialDevicePathMax
  serialBaud : Int
  serialDatabits : Int
  serialParity : Int
  serialStopbits : Int
  serialFlow : Int
  squidPayload : Int
deriving DecidableEq

def isValidAssignableServerPort (portNumber : UInt8) : Bool :=
  serverPluginPortMin ≤ portNumber ∧ portNumber ≤ serverPluginPortMax

def trimLeft (text : List UInt8) : List UInt8 := text.dropWhile isSpace

def trimRight (text : List UInt8) : List UInt8 := text.rdropWhile isSpace

def copyPluginPath (size : Nat) (source : List UInt8) : Option (Buffer size) :=
  if h : source.length < size then some ⟨source, h⟩ else none

def findPluginMapping (configFile : ServerPluginConfigFile) (portNumber : UInt8) :
    Option ServerPluginMapping :=
  configFile.mappings.find? fun mapping => mapping.portNumber = portNumber

def parsePortNumber (text : List UInt8) : Option UInt8 :=
  match strtol text with
  | some (parsedValue, []) =>
    if parsedValue < 0 ∨ 255 < parsedValue then none else some (UInt8.ofNat parsedValue.toNat)
  | _ => none

/-- The conversion of a `long` to an `int`. -/
def toInt (n : Int) : Int := n.bmod (2 ^ 32)

/-- A directive with one value, which `read` takes. -/
def oneValue (invalid : String) (read : List UInt8 → Except String α)
    (firstValue secondValue : Option (List UInt8)) : Except String α :=
  match firstValue with
  | none => .error invalid
  | some value => if secondValue = none then read value else .error invalid

def readPath (size : Nat) (tooLong : String) (path : List UInt8) : Except String (Buffer size) :=
  match copyPluginPath size path with
  | none => .error tooLong
  | some copy => .ok copy

/-- One of some words, as the number that stands for it. -/
def readChoice (unknown : String) (choices : List (String × Int)) (value : List UInt8) :
    Except String Int :=
  match choices.find? fun choice => value = ascii choice.1 with
  | none => .error unknown
  | some choice => .ok choice.2

def readBaud (value : List UInt8) : Except String Int :=
  match strtol value with
  | some (parsedBaud, []) =>
    if parsedBaud ≤ 0 then .error "invalid serial baud rate" else .ok (toInt parsedBaud)
  | _ => .error "invalid serial baud rate"

def readPayload (value : List UInt8) : Except String Int :=
  match parsePortNumber value with
  | none => .error "squid_payload must be from 16 to 112"
  | some payload =>
    if payload < serverSquidPayloadMin ∨ serverSquidPayloadMax < payload then
      .error "squid_payload must be from 16 to 112"
    else .ok payload.toNat

section
variable (configFile : ServerPluginConfigFile)
  (firstValue secondValue extraValue : Option (List UInt8))

def parseSystemPluginLine : Except String ServerPluginConfigFile := do
  let path ← oneValue "invalid system_plugin directive"
    (readPath serverPluginPathMax "system plugin path is too long") firstValue secondValue
  return { configFile with systemPluginPath := path }

def parsePluginLine : Except String ServerPluginConfigFile :=
  match firstValue, secondValue, extraValue with
  | some portToken, some pathToken, none =>
    match parsePortNumber portToken with
    | none => .error "invalid port number"
    | some portNumber =>
      if ¬ isValidAssignableServerPort portNumber then
        .error "plugin ports must be in the range 1-15"
      else if (findPluginMapping configFile portNumber).isSome then
        .error "duplicate plugin port assignment"
      else if serverPluginMappingMax ≤ configFile.mappings.length then
        .error "too many plugin mappings"
      else match copyPluginPath serverPluginPathMax pathToken with
        | none => .error "plugin path is too long"
        | some pluginPath =>
          .ok { configFile with mappings := configFile.mappings ++ [⟨portNumber, pluginPath⟩] }
  | _, _, _ => .error "invalid plugin directive"

def parseSerialDeviceLine : Except String ServerPluginConfigFile := do
  let device ← oneValue "invalid serial_device directive"
    (readPath serverSerialDevicePathMax "serial device path is too long") firstValue secondValue
  return { configFile with serialDevice := device }

def parseSerialBaudLine : Except String ServerPluginConfigFile := do
  let baud ← oneValue "invalid serial_baud directive" readBaud firstValue secondValue
  return { configFile with serialBaud := baud }

def parseSerialDatabitsLine : Except String ServerPluginConfigFile := do
  let databits ← oneValue "serial_databits must be 7 or 8"
    (readChoice "serial_databits must be 7 or 8" [("7", 7), ("8", 8)]) firstValue secondValue
  return { configFile with serialDatabits := databits }

def parseSerialParityLine : Except String ServerPluginConfigFile := do
  let parity ← oneValue "invalid serial_parity directive"
    (readChoice "serial_parity must be none, even, or odd" [("none", 0), ("even", 1), ("odd", 2)])
    firstValue secondValue
  return { configFile with serialParity := parity }

def parseSerialStopbitsLine : Except String ServerPluginConfigFile := do
  let stopbits ← oneValue "serial_stopbits must be 1 or 2"
    (readChoice "serial_stopbits must be 1 or 2" [("1", 1), ("2", 2)]) firstValue secondValue
  return { configFile with serialStopbits := stopbits }

def parseSerialFlowLine : Except String ServerPluginConfigFile := do
  let flow ← oneValue "invalid serial_flow directive"
    (readChoice "serial_flow must be none, rtscts, or xonxoff"
      [("none", 0), ("rtscts", 1), ("xonxoff", 2)]) firstValue secondValue
  return { configFile with serialFlow := flow }

def parseSquidPayloadLine : Except String ServerPluginConfigFile := do
  let payload ← oneValue "squid_payload must be from 16 to 112" readPayload firstValue secondValue
  return { configFile with squidPayload := payload }

end

/-- What the loop of `parse_server_plugin_config_file` does with the tokens of a line. -/
def parseDirective (configFile : ServerPluginConfigFile)
    (keyword firstValue secondValue extraValue : Option (List UInt8)) :
    Except String ServerPluginConfigFile :=
  if keyword = some (ascii "system_plugin") then
    parseSystemPluginLine configFile firstValue secondValue
  else if keyword = some (ascii "plugin") then
    parsePluginLine configFile firstValue secondValue extraValue
  else if keyword = some (ascii "serial_device") then
    parseSerialDeviceLine configFile firstValue secondValue
  else if keyword = some (ascii "serial_baud") then
    parseSerialBaudLine configFile firstValue secondValue
  else if keyword = some (ascii "serial_databits") then
    parseSerialDatabitsLine configFile firstValue secondValue
  else if keyword = some (ascii "serial_parity") then
    parseSerialParityLine configFile firstValue secondValue
  else if keyword = some (ascii "serial_stopbits") then
    parseSerialStopbitsLine configFile firstValue secondValue
  else if keyword = some (ascii "serial_flow") then
    parseSerialFlowLine configFile firstValue secondValue
  else if keyword = some (ascii "squid_payload") then
    parseSquidPayloadLine configFile firstValue secondValue
  else .error "unknown plugin configuration directive"

def isBlank (c : UInt8) : Bool := c = 0x20 ∨ c = 0x09

/-- The turn of that loop for the bytes that `fgets` has put into `line_buffer`. -/
def parseLine (configFile : ServerPluginConfigFile) (lineBuffer : List UInt8) :
    Except String ServerPluginConfigFile :=
  let line := trimLeft (trimRight (CString.ofBytes lineBuffer).bytes)
  if line = [] ∨ line.head? = some 0x23 then .ok configFile
  else
    let (keyword, rest) := strtok isBlank line
    let (firstValue, rest) := strtok isBlank rest
    let (secondValue, rest) := strtok isBlank rest
    let (extraValue, _) := strtok isBlank rest
    parseDirective configFile keyword firstValue secondValue extraValue

def serverDefaultSystemPluginPath : Buffer serverPluginPathMax :=
  ⟨ascii "/opt/squid/lib/plugins/libsquidsys.so", by decide⟩

/-- The defaults: no serial device, 9600 8N1 with RTS/CTS, and the largest payload. -/
def initServerPluginConfigFile : ServerPluginConfigFile where
  systemPluginPath := serverDefaultSystemPluginPath
  mappings := []
  serialDevice := ⟨[], by decide⟩
  serialBaud := 9600
  serialDatabits := 8
  serialParity := 0
  serialStopbits := 1
  serialFlow := 1
  squidPayload := serverSquidPayloadMax.toNat

/-- `parse_server_plugin_config_file`, given what is in the file; `none` is a file that cannot be
opened. -/
def parseServerPluginConfigFile (file : Option (List UInt8)) :
    Except String ServerPluginConfigFile :=
  match file with
  | none => .error "failed to open plugin configuration"
  | some text => (fgetsLoop 1024 text).foldlM parseLine initServerPluginConfigFile

end SquidServer.PluginConfig
