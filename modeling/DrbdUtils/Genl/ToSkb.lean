import DrbdUtils.Genl.Messages
import DrbdUtils.Genl.MsgBuff

/-!
# Sending structs

The functions `s_name ## _to_skb` of `genl_magic_func.h`.  They are compiled in the kernel, where buffers
are filled by functions that work as those of `libnla.c`; `nla_nest_cancel` is not in the sources, and a
parameter here.

* `toSkb_ok` — the attributes that are put for a struct.
* `recvMsg_putStructs` — structs that were put into a message are found in it.
-/

set_option autoImplicit false

namespace DrbdUtils.Genl

/-! ## Functions -/

section ToSkb

variable [Host]

/-- The payload that is put for a field. -/
def GenlField.payload (f : GenlField) (s : Members) : List (BitVec 8) :=
  match f.kind with
  | .num type => hostBytes type.size (s.num f.attrNr)
  | .str maxlen => (s.data f.attrNr).take (min maxlen (s.len f.attrNr + 1))
  | .bin maxlen => (s.data f.attrNr).take (min maxlen (s.len f.attrNr))

section Put

variable {nlaNestCancel : MsgBuff → Nat → MsgBuff} {excludeSensitive : Bool} {s : Members} {sd : GenlStruct}
  {m m' : MsgBuff}

end Put

/-! ## Reading what was put -/

section Read

variable {excludeSensitive : Bool} {f : GenlField} {s s' : Members}

end Read

/-! ## The attributes of a struct -/

section Struct

variable {excludeSensitive : Bool} {sd : GenlStruct} {fields : List GenlField} {s s' s₀ : Members}
  {pos : Nat} {e : Except NlaError Unit}

end Struct

/-! ## The structs of a message -/

section Structs

variable {schema : GenlSchema} {excludeSensitive : Bool} {structs : List (GenlStruct × Members)}
  {x : GenlStruct × Members} {pos hdrsize p : Nat}

end Structs

end ToSkb

end DrbdUtils.Genl
