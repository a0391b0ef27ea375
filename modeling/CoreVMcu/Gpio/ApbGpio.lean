import CoreVMcu.Clocked.ApbMaster
import CoreVMcu.Clocked.TwoRuns
import Mathlib.Data.BitVec
import Mathlib.Logic.Function.Basic

/-!
# The GPIO block

`apb_gpiov2` keeps the configuration and the output of each pin, synchronises the pins'
inputs and raises an interrupt for each pin.  A vector is a function from its indices; an
index beyond its width is never written and reads as the value at reset.
-/

namespace CoreVMcu.Gpio

open Clocked

/-- `N_GPIO`. -/
def nGpio : Nat := 32

/-- The registers that have an address and a function. -/
inductive GpioReg where
  | setGpio | clrGpio | toggGpio | pin0 | out0 | setSel | rdStat | setDir | setInt | intAck
  deriving DecidableEq

/-- The register at an address. -/
def gpioReg? (paddr : BitVec 12) : Option GpioReg :=
  match paddr.toNat with
  | 0x000 => some .setGpio
  | 0x004 => some .clrGpio
  | 0x008 => some .toggGpio
  | 0x010 => some .pin0
  | 0x020 => some .out0
  | 0x030 => some .setSel
  | 0x034 => some .rdStat
  | 0x038 => some .setDir
  | 0x03C => some .setInt
  | 0x040 => some .intAck
  | _ => none

/-- The registers that are written over the bus. -/
structure GpioRegs where
  rGpioSelect : BitVec 8
  rGpioInten : Nat → Bool
  rGpioInttype : Nat → BitVec 3
  rGpioOut : Nat → Bool
  rGpioDir : Nat → BitVec 2

/-- The registers of `apb_gpiov2`. -/
structure ApbGpio where
  regs : GpioRegs
  sBlockInt : Nat → Bool
  rGpioSync0 : Nat → Bool
  rGpioSync1 : Nat → Bool
  rGpioIn : Nat → Bool
  rGpioRise : Nat → Bool
  rGpioFall : Nat → Bool
  pready : Bool
  prdata : BitVec 32

/-- What the reset leaves as it is at power-up. -/
structure GpioPowerUp where
  rGpioOut : Nat → Bool
  rGpioRise : Nat → Bool
  rGpioFall : Nat → Bool
  prdata : BitVec 32

/-- The index in the data of a single-pin access: its bits from `NG_BITS`, which is seven,
down. -/
def pinIndex (pwdata : BitVec 32) : Nat := (pwdata.extractLsb' 0 8).toNat

/-- A vector or array of `N_GPIO + 1` entries with one of them assigned. -/
def assign {α : Type} (entries : Nat → α) (index : Nat) (value : α) : Nat → α :=
  if index ≤ nGpio then Function.update entries index value else entries

theorem assign_apply {α : Type} (entries : Nat → α) (index : Nat) (value : α) {i : Nat}
    (inside : i < nGpio) :
    assign entries index value i = if index = i then value else entries i := by
  unfold assign
  split
  next => rw [Function.update_apply]; simp only [eq_comm]
  next beyond =>
    have other : index ≠ i := by omega
    rw [if_neg other]

/-- The low bits of a vector. -/
def lowBits (vector : Nat → Bool) : BitVec 32 :=
  (List.range 32).foldl (fun word i => word ||| (BitVec.ofBool (vector i)).setWidth 32 <<< i) 0

namespace GpioRegs

/-- What an accepted write does to the registers. -/
def write (regs : GpioRegs) (paddr : BitVec 12) (pwdata : BitVec 32) : GpioRegs :=
  let index := pinIndex pwdata
  let selected := { regs with rGpioSelect := pwdata.extractLsb' 0 8 }
  match gpioReg? paddr with
  | some .setSel => selected
  | some .setDir =>
      { selected with rGpioDir := assign regs.rGpioDir index (pwdata.extractLsb' 24 2) }
  | some .setInt =>
      { selected with
        rGpioInttype := assign regs.rGpioInttype index (pwdata.extractLsb' 17 3)
        rGpioInten := assign regs.rGpioInten index (pwdata.getLsbD 16) }
  | some .setGpio => { selected with rGpioOut := assign regs.rGpioOut index true }
  | some .clrGpio => { selected with rGpioOut := assign regs.rGpioOut index false }
  | some .toggGpio =>
      { selected with rGpioOut := assign regs.rGpioOut index (!regs.rGpioOut index) }
  | some .out0 =>
      { regs with
        rGpioOut := fun i =>
          if i < (if nGpio > 32 then 32 else nGpio) then pwdata.getLsbD i else regs.rGpioOut i }
  | _ => regs

/-- An access is a write or leaves the registers as they are. -/
def access (regs : GpioRegs) (access : Apb.Access 12 32) : GpioRegs :=
  if access.write then regs.write access.addr access.data else regs

end GpioRegs

namespace ApbGpio

/-- The registers in reset. -/
def reset (powerUp : GpioPowerUp) : ApbGpio where
  regs :=
    { rGpioSelect := 0
      rGpioInten := fun _ => false
      rGpioInttype := fun _ => 0
      rGpioOut := powerUp.rGpioOut
      rGpioDir := fun _ => 0 }
  sBlockInt _ := false
  rGpioSync0 _ := false
  rGpioSync1 _ := false
  rGpioIn _ := false
  rGpioRise := powerUp.rGpioRise
  rGpioFall := powerUp.rGpioFall
  pready := false
  prdata := powerUp.prdata

variable (gpio : ApbGpio) (i : Nat)

/-- `s_is_int_fall`. -/
def isIntFall : Bool := (gpio.regs.rGpioInttype i).getLsbD 0 && gpio.rGpioFall i

/-- `s_is_int_rise`. -/
def isIntRise : Bool := (gpio.regs.rGpioInttype i).getLsbD 1 && gpio.rGpioRise i

/-- `s_is_int_low`. -/
def isIntLow : Bool :=
  gpio.regs.rGpioInttype i == 0b000 && !gpio.rGpioIn i && !gpio.sBlockInt i &&
    gpio.regs.rGpioInten i

/-- `s_is_int_hi`. -/
def isIntHi : Bool :=
  gpio.regs.rGpioInttype i == 0b100 && gpio.rGpioIn i && !gpio.sBlockInt i &&
    gpio.regs.rGpioInten i

/-- `interrupt`. -/
def interrupt : Bool :=
  gpio.regs.rGpioInten i && (gpio.isIntFall i || gpio.isIntRise i) || gpio.isIntLow i ||
    gpio.isIntHi i

/-- `gpio_out`. -/
def gpioOut : Bool := (gpio.regs.rGpioDir i).getLsbD 0 && gpio.regs.rGpioOut i

/-- `gpio_dir`. -/
def gpioDir : Bool :=
  if (gpio.regs.rGpioDir i).getLsbD 1 then !gpio.regs.rGpioOut i
  else (gpio.regs.rGpioDir i).getLsbD 0

/-- `gpio_in_sync`: one bit is assigned to the vector, so to its lowest bit. -/
def gpioInSync : Bool := i == 0 && gpio.rGpioIn (nGpio - 1)

/-- What a read puts on the bus. -/
def readData (paddr : BitVec 12) : BitVec 32 :=
  let select := gpio.regs.rGpioSelect
  match gpioReg? paddr with
  | some .rdStat =>
      (gpio.regs.rGpioDir select.toNat).setWidth 32 <<< 24 |||
        (gpio.regs.rGpioInttype select.toNat).setWidth 32 <<< 17 |||
        (BitVec.ofBool (gpio.regs.rGpioInten select.toNat)).setWidth 32 <<< 16 |||
        (BitVec.ofBool (gpio.rGpioIn select.toNat)).setWidth 32 <<< 12 |||
        (BitVec.ofBool (gpio.regs.rGpioOut select.toNat)).setWidth 32 <<< 8 |||
        select.setWidth 32
  | some .out0 => lowBits gpio.regs.rGpioOut
  | some .pin0 => lowBits gpio.rGpioIn
  | _ => 0

variable (gpioIn : BitVec 32) (lines : Apb.Lines 12 32)

/-- The bus accesses the block. -/
def active (lines : Apb.Lines 12 32) : Bool := lines.psel && lines.penable

/-- The access that is accepted: once, while `PREADY` is still low. -/
def accepted : List (Apb.Access 12 32) :=
  if active lines && !gpio.pready then [lines.access] else []

/-- An interrupt of the pin is acknowledged. -/
def acknowledges (access : Apb.Access 12 32) : Bool :=
  access.write && gpioReg? access.addr == some .intAck && pinIndex access.data == i

/-- One clock edge. -/
def step : ApbGpio where
  regs := (gpio.accepted lines).foldl GpioRegs.access gpio.regs
  sBlockInt i :=
    if (gpio.accepted lines).any (acknowledges i) then false
    else gpio.isIntLow i || gpio.isIntHi i || gpio.sBlockInt i
  rGpioSync0 i := gpioIn.getLsbD i
  rGpioSync1 := gpio.rGpioSync0
  rGpioIn := gpio.rGpioSync1
  rGpioRise i := !gpio.rGpioIn i && gpio.rGpioSync1 i
  rGpioFall i := gpio.rGpioIn i && !gpio.rGpioSync1 i
  pready := active lines && !gpio.pready
  prdata :=
    if active lines && !gpio.pready && !lines.access.write then gpio.readData lines.access.addr
    else gpio.prdata

end ApbGpio

/-- What the block sees in a cycle. -/
structure GpioInput where
  gpioIn : BitVec 32
  lines : Apb.Lines 12 32

/-- `apb_gpiov2`. -/
def gpioMachine (powerUp : GpioPowerUp) : Machine ApbGpio GpioInput where
  init := .reset powerUp
  step gpio input := gpio.step input.gpioIn input.lines

/-! ## One pin -/

/-- What an access does to one pin. -/
inductive PinAccess where
  | setDir (dir : BitVec 2)
  | setInt (inttype : BitVec 3) (inten : Bool)
  | setGpio
  | clrGpio
  | toggGpio
  | out (bit : Bool)
  | intAck

/-- The part of an access that concerns a pin: a single-pin access with its index, or its bit
of a write to `OUT0`. -/
def pinAccess? (i : Nat) (access : Apb.Access 12 32) : Option PinAccess :=
  let single (pinAccess : PinAccess) : Option PinAccess :=
    if pinIndex access.data = i then some pinAccess else none
  if access.write then
    match gpioReg? access.addr with
    | some .setDir => single (.setDir (access.data.extractLsb' 24 2))
    | some .setInt => single (.setInt (access.data.extractLsb' 17 3) (access.data.getLsbD 16))
    | some .setGpio => single .setGpio
    | some .clrGpio => single .clrGpio
    | some .toggGpio => single .toggGpio
    | some .intAck => single .intAck
    | some .out0 => some (.out (access.data.getLsbD i))
    | _ => none
  else none

/-- The registers of one pin, but for those that mark the edges of its input. -/
structure Pin where
  inten : Bool
  inttype : BitVec 3
  out : Bool
  dir : BitVec 2
  block : Bool
  sync0 : Bool
  sync1 : Bool
  input : Bool
  ready : Bool

/-- What one pin sees in a cycle. -/
structure PinInput where
  active : Bool
  access : Option PinAccess
  gpioIn : Bool

namespace Pin

variable (pin : Pin)

/-- The registers that are written over the bus. -/
def access : Option PinAccess → Pin
  | some (.setDir dir) => { pin with dir }
  | some (.setInt inttype inten) => { pin with inttype, inten }
  | some .setGpio => { pin with out := true }
  | some .clrGpio => { pin with out := false }
  | some .toggGpio => { pin with out := !pin.out }
  | some (.out bit) => { pin with out := bit }
  | some .intAck => { pin with block := false }
  | none => pin

/-- The level interrupts that are not blocked. -/
def level : Bool :=
  (pin.inttype == 0b000 && !pin.input || pin.inttype == 0b100 && pin.input) && !pin.block &&
    pin.inten

/-- One clock edge. -/
def step (input : PinInput) : Pin :=
  let access := if input.active && !pin.ready then input.access else none
  { ({ pin with block := pin.level || pin.block } : Pin).access access with
    sync0 := input.gpioIn
    sync1 := pin.sync0
    input := pin.sync1
    ready := input.active && !pin.ready }

end Pin

/-- The registers of a pin in the block. -/
def ApbGpio.pin (gpio : ApbGpio) (i : Nat) : Pin where
  inten := gpio.regs.rGpioInten i
  inttype := gpio.regs.rGpioInttype i
  out := gpio.regs.rGpioOut i
  dir := gpio.regs.rGpioDir i
  block := gpio.sBlockInt i
  sync0 := gpio.rGpioSync0 i
  sync1 := gpio.rGpioSync1 i
  input := gpio.rGpioIn i
  ready := gpio.pready

/-- The inputs of a pin in those of the block. -/
def GpioInput.pin (input : GpioInput) (i : Nat) : PinInput where
  active := ApbGpio.active input.lines
  access := pinAccess? i input.lines.access
  gpioIn := input.gpioIn.getLsbD i

/-! ## The block as a family of pins -/

variable {i : Nat}

/-- What an access does to a pin is what the part of it that concerns the pin does. -/
theorem pin_access (gpio : ApbGpio) (inside : i < nGpio) (access : Apb.Access 12 32) :
    ApbGpio.pin
        { gpio with
          regs := gpio.regs.access access
          sBlockInt := fun j => if ApbGpio.acknowledges j access then false else gpio.sBlockInt j }
        i =
      (gpio.pin i).access (pinAccess? i access) := by
  have all : i < (if nGpio > 32 then 32 else nGpio) := inside
  have entry {α : Type} (entries : Nat → α) (index : Nat) (value : α) :
      assign entries index value i = if index = i then value else entries i :=
    assign_apply entries index value inside
  unfold GpioRegs.access pinAccess? ApbGpio.acknowledges
  cases access.write with
  | false => rfl
  | true =>
      unfold GpioRegs.write
      generalize gpioReg? access.addr = found
      cases found with
      | none => simp [ApbGpio.pin, Pin.access]
      | some reg =>
          by_cases mine : pinIndex access.data = i
          · cases reg <;> simp [ApbGpio.pin, Pin.access, entry, mine, all]
          · cases reg <;> simp [ApbGpio.pin, Pin.access, entry, mine, all]

/-- The level interrupts of a pin. -/
theorem level_pin (gpio : ApbGpio) (i : Nat) :
    (gpio.pin i).level = (gpio.isIntLow i || gpio.isIntHi i) := by
  unfold Pin.level ApbGpio.isIntLow ApbGpio.isIntHi ApbGpio.pin
  grind

/-- The bus and the level interrupts change the registers of a pin on their own. -/
theorem pin_written (gpio : ApbGpio) (inside : i < nGpio) (input : GpioInput) :
    ApbGpio.pin
        { gpio with
          regs := (gpio.step input.gpioIn input.lines).regs
          sBlockInt := (gpio.step input.gpioIn input.lines).sBlockInt }
        i =
      ({ gpio.pin i with block := (gpio.pin i).level || (gpio.pin i).block } : Pin).access
        (if ApbGpio.active input.lines && !gpio.pready then pinAccess? i input.lines.access
          else none) := by
  rw [level_pin]
  cases accepts : ApbGpio.active input.lines && !gpio.pready with
  | false =>
      have none : gpio.accepted input.lines = [] := by rw [ApbGpio.accepted, accepts]; rfl
      simp only [ApbGpio.step, none]
      rfl
  | true =>
      have one : gpio.accepted input.lines = [input.lines.access] := by
        rw [ApbGpio.accepted, accepts]
        rfl
      have written := pin_access
        { gpio with
          sBlockInt := fun j => gpio.isIntLow j || gpio.isIntHi j || gpio.sBlockInt j }
        inside input.lines.access
      simp only [ApbGpio.step, one, List.foldl_cons, List.foldl_nil, List.any_cons, List.any_nil,
        Bool.or_false, if_true]
      exact written

/-- Each pin of the block steps on its own, from its own part of the inputs. -/
theorem pin_step (gpio : ApbGpio) (inside : i < nGpio) (input : GpioInput) :
    (gpio.step input.gpioIn input.lines).pin i = (gpio.pin i).step (input.pin i) := by
  have written := pin_written gpio inside input
  calc (gpio.step input.gpioIn input.lines).pin i
      = { ApbGpio.pin
            { gpio with
              regs := (gpio.step input.gpioIn input.lines).regs
              sBlockInt := (gpio.step input.gpioIn input.lines).sBlockInt }
            i with
          sync0 := input.gpioIn.getLsbD i
          sync1 := gpio.rGpioSync0 i
          input := gpio.rGpioSync1 i
          ready := ApbGpio.active input.lines && !gpio.pready } := rfl
    _ = (gpio.pin i).step (input.pin i) := by
        rw [written]
        rfl

end CoreVMcu.Gpio
