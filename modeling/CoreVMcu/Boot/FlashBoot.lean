import CoreVMcu.Clocked.ByteMemory

/-!
# Booting from flash

`bootFromRom` reads the header and the table of areas from flash, looks for a place for its data
that is apart from the areas, moves there and loads the areas.  Its data is a `boot_code_t` in the
memory, the fields of which are at the offsets below.  The loader's other variables and the commands
to the SPI interface are not in this memory.
-/

namespace CoreVMcu.Boot.Flash

open Clocked

/-- A flash of 24-bit addresses. -/
abbrev FlashBytes := BitVec 24 → BitVec 8

abbrev Memory := BitVec 32 → BitVec 8

/-! ## The flash and the memory -/

/-- `udma_flash_read`: the commands have 24 bits for the address, and the flash goes on from
there. -/
def udmaFlashRead (flash : FlashBytes) (memory : Memory) (flashAddr l2addr : BitVec 32)
    (readLen : BitVec 16) : Memory :=
  copied memory l2addr readLen.toNat fun offset => flash ((flashAddr + offset).setWidth 24)

/-- `memcpy`. -/
def memcpy (memory : Memory) (destination source : BitVec 32) (length : BitVec 32) : Memory :=
  copied memory destination length.toNat fun offset => memory (source + offset)

/-- A field of four bytes is assigned. -/
def writeWord (memory : Memory) (address word : BitVec 32) : Memory :=
  copied memory address 4 (wordBytes word)

/-- `flash_v2_mem_area_t`. -/
structure MemArea where
  start : BitVec 32
  ptr : BitVec 32
  size : BitVec 32
  blocks : BitVec 32
  deriving DecidableEq

/-- The area at an address, of the memory or of the flash. -/
def readArea {w : Nat} (bytes : BitVec w → BitVec 8) (address : BitVec w) : MemArea where
  start := readWord bytes address
  ptr := readWord bytes (address + BitVec.ofNat w 4)
  size := readWord bytes (address + BitVec.ofNat w 8)
  blocks := readWord bytes (address + BitVec.ofNat w 12)

/-- `sizeof(boot_code_t)`; the first field is `flashBuffer`, of 4096 bytes. -/
def sizeofBootCode : Nat := 6440

def maxNbArea : Nat := 16

variable (data : BitVec 32)

def stepAddr : BitVec 32 := data + 5124

/-- `header`, of 16 bytes. -/
def headerAddr : BitVec 32 := data + 5128

def nbAreasAddr : BitVec 32 := data + 5132

def entryAddr : BitVec 32 := data + 5136

/-- `memArea[i]`, also behind the end of the table. -/
def memAreaAddr (i : Nat) : BitVec 32 := data + BitVec.ofNat 32 (5144 + 16 * i)

def hyperflashAddr : BitVec 32 := data + 6428

def blockSizeAddr : BitVec 32 := data + 6432

def qpiAddr : BitVec 32 := data + 6436

/-- `bootCode`, the first object of the L2 region of the linker script. -/
def bootCode : BitVec 32 := 0x1C07C000

/-- `HYPER_FLASH_BLOCK_SIZE` or `FLASH_BLOCK_SIZE`. -/
def blockSizeOf (hyperflash : BitVec 32) : BitVec 32 := if hyperflash ≠ 0 then 1024 else 4096

section Functions

variable (flash : FlashBytes) (memory : Memory)

/-- `data->header.nbAreas`. -/
def nbAreas : BitVec 32 := readWord memory (nbAreasAddr data)

/-- `getMemAreas`: the number is clamped as an `int`, and the length of a read is a `uint16_t`. -/
def getMemAreas : Memory :=
  let memory := udmaFlashRead flash memory 0 (headerAddr data) 16
  let nbArea :=
    if 16 ≤ (nbAreas data memory).toInt then BitVec.ofNat 32 maxNbArea else nbAreas data memory
  if nbArea ≠ 0 then
    udmaFlashRead flash memory 16 (memAreaAddr data 0) ((nbArea * 16).setWidth 16)
  else memory

/-- The test of `findDataFit`. -/
def hits (addr : BitVec 32) (area : MemArea) : Bool :=
  (area.ptr ≤ addr && addr < area.ptr + area.size) ||
    (addr < area.ptr && area.ptr < addr + BitVec.ofNat 32 sizeofBootCode)

/-- The first block behind an area. -/
def behind (blockSize : BitVec 32) (area : MemArea) : BitVec 32 :=
  (area.ptr + area.size + blockSize - 1) &&& ~~~(blockSize - 1)

/-- One iteration of the loop of `findDataFit`. -/
def fitStep (blockSize addr : BitVec 32) (area : MemArea) : BitVec 32 :=
  if hits addr area then behind blockSize area else addr

/-- The entries that a loop over all areas reads. -/
def allEntries : List Nat := List.range (nbAreas data memory).toNat

/-- `findDataFit`. -/
def findDataFit : BitVec 32 :=
  (allEntries data memory).foldl
    (fun addr i =>
      fitStep (readWord memory (blockSizeAddr data)) addr (readArea memory (memAreaAddr data i)))
    0x1C000000

/-! ## Loading -/

/-- The number of bytes of the next block: the last one is rounded up to words. -/
def iterSize (blockSize size : BitVec 32) : BitVec 32 :=
  if size < blockSize then (size + 3) &&& 0xFFFFFFFC else blockSize

/-- One block of an area, through `flashBuffer` if it is not for the L2 memory. -/
def loadBlock (isL2Section : Bool) (flashAddr areaAddr iterSize : BitVec 32) : Memory :=
  if isL2Section then udmaFlashRead flash memory flashAddr areaAddr (iterSize.setWidth 16)
  else
    memcpy (udmaFlashRead flash memory flashAddr data (iterSize.setWidth 16)) areaAddr data iterSize

/-- The loop of `load_section` from its `i`-th iteration on; `area` is an address. -/
def loadBlocks (area : BitVec 32) (isL2Section : Bool) (i : Nat)
    (flashAddr areaAddr size : BitVec 32) (memory : Memory) : Memory :=
  if i < (readArea memory area).blocks.toNat then
    let iterSize := iterSize (readWord memory (blockSizeAddr data)) size
    loadBlocks area isL2Section (i + 1) (flashAddr + iterSize) (areaAddr + iterSize)
      (size - iterSize) (loadBlock data flash memory isL2Section flashAddr areaAddr iterSize)
  else memory
termination_by 2 ^ 32 - i
decreasing_by
  have := (readArea memory area).blocks.isLt
  omega

/-- `isL2Section`. -/
def isL2 (area : MemArea) : Bool := 0x1C000000 ≤ area.ptr && area.ptr < 0x1D000000

/-- `load_section`. -/
def loadSection (address : BitVec 32) : Memory :=
  let area := readArea memory address
  loadBlocks data flash address (isL2 area) 0 area.start area.ptr area.size memory

/-- The loop of `loadBinaryAndStart` from its `i`-th iteration on, with the entries it reads. -/
def loadAreas (i : Nat) (memory : Memory) : Memory × List Nat :=
  if i < (nbAreas data memory).toNat then
    let rest := loadAreas (i + 1) (loadSection data flash memory (memAreaAddr data i))
    (rest.1, i :: rest.2)
  else (memory, [])
termination_by 2 ^ 32 - i
decreasing_by
  have := (nbAreas data memory).isLt
  omega

end Functions

/-- What `bootFromRom` does: where it moves, the memory when it jumps, the entries of the table that
it read, and where it jumps. -/
structure Booted where
  newData : BitVec 32
  memory : Memory
  entries : List Nat
  entry : BitVec 32

section Boot

variable (flash : FlashBytes) (hyperflash qpi : BitVec 32) (memory : Memory)

/-- The fields that `bootFromRom` assigns. -/
def withSettings : Memory :=
  writeWord
    (writeWord (writeWord memory (hyperflashAddr data) hyperflash) (blockSizeAddr data)
      (blockSizeOf hyperflash)) (qpiAddr data) qpi

/-- The memory in which `findDataFit` looks for a place. -/
def lookedAt : Memory :=
  getMemAreas bootCode flash
    (writeWord (withSettings bootCode hyperflash qpi memory) (stepAddr bootCode) 0)

/-- The memory in which the areas are loaded. -/
def prepared (newData : BitVec 32) : Memory :=
  getMemAreas newData flash
    (withSettings newData hyperflash qpi (lookedAt flash hyperflash qpi memory))

/-- `bootFromRom`, with `loadBinaryAndStart` on the new stack. -/
def bootFromRom : Booted :=
  let looked := lookedAt flash hyperflash qpi memory
  let newData := findDataFit bootCode looked
  let loaded := loadAreas newData flash 0 (prepared flash hyperflash qpi memory newData)
  { newData
    memory := loaded.1
    entries := allEntries bootCode looked ++ loaded.2
    entry := readWord loaded.1 (entryAddr newData) }

end Boot

/-- The number of areas in flash. -/
def flashNbAreas (flash : FlashBytes) : BitVec 32 := readWord flash 4

/-- The areas in flash that have a place in the table. -/
def flashTable (flash : FlashBytes) : List MemArea :=
  (List.range (min (flashNbAreas flash).toNat maxNbArea)).map fun i =>
    readArea flash (BitVec.ofNat 24 (16 + 16 * i))

/-- An area and the data at an address have a byte in common. -/
def Overlaps (addr : BitVec 32) (area : MemArea) : Prop :=
  ∃ address, InRange area.ptr area.size.toNat address ∧ InRange addr sizeofBootCode address

/-- The byte of an area at an address. -/
def MemArea.byteAt (area : MemArea) (flash : FlashBytes) (address : BitVec 32) : BitVec 8 :=
  flash ((area.start + (address - area.ptr)).setWidth 24)

/-- No entry behind the table is read, the data is apart from the areas, and these hold what the
flash does. -/
structure BootsRight (flash : FlashBytes) (booted : Booted) : Prop where
  entries : ∀ i ∈ booted.entries, i < maxNbArea
  apart : ∀ area ∈ flashTable flash, ¬Overlaps booted.newData area
  loaded : ∀ area ∈ flashTable flash, ∀ address, InRange area.ptr area.size.toNat address →
    booted.memory address = area.byteAt flash address

/-- The numbers of blocks in flash are those of the sizes. -/
def BlocksFit (flash : FlashBytes) (hyperflash : BitVec 32) : Prop :=
  ∀ area ∈ flashTable flash, area.blocks.toNat =
    (area.size.toNat + (blockSizeOf hyperflash).toNat - 1) / (blockSizeOf hyperflash).toNat

end CoreVMcu.Boot.Flash
