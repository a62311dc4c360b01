import ControlLogix.Eip.Encapsulation

namespace ControlLogix

def kSegmentSymbolic : UInt8 := 0x91

def kConnectionManagerClass : UInt8 := 0x06

def kUnconnectedSend : UInt8 := 0x52

def kMaxSymbolicName : Nat := 120

def kNoRoute : UInt8 := 0xFF

def kSymbolClass : UInt8 := 0x6B

def kSymbolName : UInt8 := 1

def kSymbolType : UInt8 := 2

inductive Service where
  | getAttributeSingle | getInstanceAttributeList
  deriving DecidableEq, Repr

def Service.code : Service → UInt8
  | .getAttributeSingle => 0x0E
  | .getInstanceAttributeList => 0x55

-- A C string is the list of its bytes before the NUL.
def appendSymbolic (name : List UInt8) : List UInt8 :=
  let len := if kMaxSymbolicName < name.length then kMaxSymbolicName else name.length
  [kSegmentSymbolic,UInt8.ofNat len] ++ name.take len ++ (if len % 2 = 1 then [0] else [])

def kSegmentClassId8 : UInt8 := 0x20

def kSegmentInstanceId8 : UInt8 := 0x24

def appendClass (classId : UInt8) : List UInt8 := [kSegmentClassId8,classId]

def appendInstance (instanceId : UInt8) : List UInt8 := [kSegmentInstanceId8,instanceId]

def kSegmentInstanceId16 : UInt8 := 0x25

def kSegmentInstanceId32 : UInt8 := 0x26

def kSegmentAttributeId8 : UInt8 := 0x30

-- The pad byte that fills the last word stands behind the number.
def appendInstance16 (instanceId : UInt16) : List UInt8 :=
  [kSegmentInstanceId16,instanceId.toUInt8,(instanceId >>> 8).toUInt8,0x00]

def appendInstance32 (instanceId : UInt32) : List UInt8 :=
  [kSegmentInstanceId32,instanceId.toUInt8,(instanceId >>> 8).toUInt8,
   (instanceId >>> 16).toUInt8,(instanceId >>> 24).toUInt8,0x00]

def appendAttribute (attributeId : UInt8) : List UInt8 := [kSegmentAttributeId8,attributeId]

def appendPortSegment (port linkAddress : UInt8) : List UInt8 := [port &&& 0x0F,linkAddress]

def appendBackplaneRoute (slot : UInt8) : List UInt8 := [0x01,0x00,0x01,slot]

inductive DataType where
  | bool | sint | int | dint | lint | usint | uint | udint | ulint | real | lreal | string
  deriving DecidableEq, Repr

def DataType.code : DataType → UInt8
  | .bool => 0xC1
  | .sint => 0xC2
  | .int => 0xC3
  | .dint => 0xC4
  | .lint => 0xC5
  | .usint => 0xC6
  | .uint => 0xC7
  | .udint => 0xC8
  | .ulint => 0xC9
  | .real => 0xCA
  | .lreal => 0xCB
  | .string => 0xD0

def DataType.all : List DataType :=
  [.bool,.sint,.int,.dint,.lint,.usint,.uint,.udint,.ulint,.real,.lreal,.string]

-- static_cast<DataType>(code) for a code that may name no type.
def DataType.cast (code : UInt8) : Option DataType := DataType.all.find? fun t => t.code = code

def dataTypeElementSize : Option DataType → Nat
  | some .bool => 1
  | some .sint => 1
  | some .int => 2
  | some .dint => 4
  | some .lint => 8
  | some .usint => 1
  | some .uint => 2
  | some .udint => 4
  | some .ulint => 8
  | some .real => 4
  | some .lreal => 8
  | some .string => 0
  | none => 0

inductive TagService where
  | read | write | readFragmented | writeFragmented
  deriving DecidableEq, Repr

def TagService.code : TagService → UInt8
  | .read => 0x4C
  | .write => 0x4D
  | .readFragmented => 0x52
  | .writeFragmented => 0x53

end ControlLogix
