import FuseBank.Generation
import FuseBank.Setup

/-!
# Descriptors of banks

A descriptor is all that sets one bank apart from another: its size, the clocks that
have to run, the generation of its controller and what has to be set up once. A bank
is found by the name under which the device tree lists it.
-/

namespace FuseBank

/-- What there is to know about a bank. -/
structure Descriptor where
  /-- How many bytes the bank has. -/
  size : UInt32
  /-- The clocks that run during a read, in the order in which they are enabled. -/
  clocks : List String
  /-- The generation of its controller. Without one every read is unsupported. -/
  generation : Option Generation
  /-- What is set up when a controller is attached. -/
  setup : Option Setup

namespace Descriptor

/-- The bank of the PX30 and the RK3308. -/
def px30 : Descriptor where
  size := 0x40
  clocks := ["otp", "apb_pclk", "phy"]
  generation := some .one
  setup := none

/-- The bank of the RK3568. -/
def rk3568 : Descriptor where
  size := 0x80
  clocks := ["usr", "sbpi", "apb", "phy"]
  generation := some .two
  setup := none

/-- The bank of the RK3588. -/
def rk3588 : Descriptor where
  size := 0x400
  clocks := ["otpc", "apb", "arb", "phy"]
  generation := some .three
  setup := none

/-- The names in device trees, and the bank that each one stands for. -/
def table : List (String × Descriptor) :=
  [("rockchip,px30-otp", px30),
   ("rockchip,rk3308-otp", px30),
   ("rockchip,rk3568-otp", rk3568),
   ("rockchip,rk3588-otp", rk3588)]

/-- The bank that a name stands for. -/
def lookup? (name : String) : Option Descriptor :=
  (table.find? fun entry => entry.1 == name).map Prod.snd

end Descriptor

/-- What a registration layer is told about a bank. -/
structure Registration where
  /-- The name under which the bank is registered. -/
  name : String
  /-- Whether the bank cannot be written. -/
  readOnly : Bool
  /-- The distance between offsets at which a read may begin. -/
  stride : UInt32
  /-- The least number of bytes that can be read. -/
  wordSize : UInt32
  /-- How many bytes the bank has. -/
  size : UInt32
  deriving DecidableEq, Repr

namespace Registration

/-- The name under which every bank is registered. -/
def bankName : String := "rockchip-otp"

/-- What there is to tell about a bank: it is read only, and may be read from any
byte on for any number of bytes. -/
def of (d : Descriptor) : Registration where
  name := bankName
  readOnly := true
  stride := 1
  wordSize := 1
  size := d.size

end Registration

end FuseBank
