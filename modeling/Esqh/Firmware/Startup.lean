import Esqh.Firmware.Types
import Esqh.Library.Transfer
import Mathlib.Algebra.Group.Nat.Defs

/-!
The reset handler of `firmware/startup.c` and the layout of `firmware/linker.ld`.
Memory is a byte at every address. A word access that is not aligned, a load
outside both regions of the linker script and a store outside its RAM are
hardware faults.
-/

namespace Esqh

open Transfer

/-- A memory region of the linker script. -/
structure Region where
  origin : Nat
  length : Nat

def flash : Region := ⟨0x08000000, 64 * 1024⟩

def ram : Region := ⟨0x20000000, 8 * 1024⟩

def Region.Holds (region : Region) (address size : Nat) : Prop :=
  region.origin ≤ address ∧ address + size ≤ region.origin + region.length

instance (region : Region) (address size : Nat) : Decidable (region.Holds address size) :=
  inferInstanceAs (Decidable (_ ∧ _))

/-! Words of the memory, little-endian. -/

def wordAt (memory : Nat → U8) (address : Nat) : U32 :=
  (memory address).setWidth 32 ||| (memory (address + 1)).setWidth 32 <<< 8 |||
    (memory (address + 2)).setWidth 32 <<< 16 ||| (memory (address + 3)).setWidth 32 <<< 24

def putWord (memory : Nat → U8) (address : Nat) (word : U32) : Nat → U8 := fun place =>
  if address ≤ place ∧ place < address + 4 then word.extractLsb' (8 * (place - address)) 8
  else memory place

def loadWord (memory : Nat → U8) (address : Nat) : Option U32 :=
  if 4 ∣ address ∧ (flash.Holds address 4 ∨ ram.Holds address 4) then some (wordAt memory address)
  else none

def storeWord (memory : Nat → U8) (address : Nat) (word : U32) : Option (Nat → U8) :=
  if 4 ∣ address ∧ ram.Holds address 4 then some (putWord memory address word) else none

/-! The two loops of the handler. -/

def copyData (edata : Nat) (memory : Nat → U8) (destination source : Nat) : Option (Nat → U8) :=
  if destination < edata then do
    let word ← loadWord memory source
    let memory ← storeWord memory destination word
    copyData edata memory (destination + 4) (source + 4)
  else some memory
termination_by edata - destination

def clearBss (ebss : Nat) (memory : Nat → U8) (destination : Nat) : Option (Nat → U8) :=
  if destination < ebss then do
    let memory ← storeWord memory destination 0
    clearBss ebss memory (destination + 4)
  else some memory
termination_by ebss - destination

/-- The symbols that the linker script defines, with what its order, its regions
and its alignments make true of them in a program whose sections it all names. -/
structure Symbols where
  sidata : Nat
  sdata : Nat
  edata : Nat
  sbss : Nat
  ebss : Nat
  aligned : 4 ∣ sidata ∧ 4 ∣ sdata ∧ 4 ∣ edata ∧ 4 ∣ sbss ∧ 4 ∣ ebss
  ordered : sdata ≤ edata ∧ edata ≤ sbss ∧ sbss ≤ ebss
  loaded : flash.Holds sidata (edata - sdata)
  placed : ram.Holds sdata (ebss - sdata)

/-- The memory with which the handler calls `firmware_main`. -/
def resetHandler (symbols : Symbols) (memory : Nat → U8) : Option (Nat → U8) := do
  let memory ← copyData symbols.edata memory symbols.sdata symbols.sidata
  clearBss symbols.ebss memory symbols.sbss

/-! The location counters of the linker script. -/

/-- The counter at the next multiple of a boundary. -/
def alignTo (boundary counter : Nat) : Nat := (counter + (boundary - 1)) / boundary * boundary

/-- `ALIGN(4)` -/
def align (counter : Nat) : Nat := alignTo 4 counter

theorem dvd_alignTo (boundary counter : Nat) : boundary ∣ alignTo boundary counter :=
  Nat.dvd_mul_left boundary _

theorem le_alignTo {boundary : Nat} (h : 0 < boundary) (counter : Nat) :
    counter ≤ alignTo boundary counter := by
  have hdivide := Nat.div_add_mod (counter + (boundary - 1)) boundary
  have hrest := Nat.mod_lt (counter + (boundary - 1)) h
  rw [alignTo, Nat.mul_comm]
  omega

/-- A boundary below 4 leaves a multiple of 4 where it is. -/
theorem dvd_alignTo_pow {counter : Nat} (h : 4 ∣ counter) (power : Nat) :
    4 ∣ alignTo (2 ^ power) counter := by
  rcases Nat.lt_or_ge power 2 with hlow | hhigh
  · obtain rfl | rfl : power = 0 ∨ power = 1 := by omega
    · rw [alignTo]
      omega
    · rw [alignTo]
      omega
  · exact Nat.dvd_trans (Nat.pow_dvd_pow 2 hhigh) (dvd_alignTo _ _)

theorem dvd_align (counter : Nat) : 4 ∣ align counter := dvd_alignTo 4 counter

theorem le_align (counter : Nat) : counter ≤ align counter := le_alignTo (by decide) counter

/-- What an output section gets from its input sections: the bytes they take, with
the padding between them, and the exponent of the largest of their alignments. -/
structure Contents where
  size : Nat
  alignmentPower : Nat

/-- The start of an output section, to which its largest alignment moves the
counter of its region. -/
def Contents.start (contents : Contents) (counter : Nat) : Nat :=
  alignTo (2 ^ contents.alignmentPower) counter

theorem Contents.le_start (contents : Contents) (counter : Nat) :
    counter ≤ contents.start counter :=
  le_alignTo (Nat.two_pow_pos _) counter

/-- The contents of the output sections, and the exponent of the boundary to which
the linker moves the load address of `.data`: 0 where it keeps to the counter of
flash. No other input section is allocated: one that the script does not name
would be placed between them. -/
structure Sections where
  isrVector : Contents
  text : Contents
  data : Contents
  bss : Contents
  loadAlignmentPower : Nat

namespace Sections

variable (sections : Sections)

/-- The counter behind contents that follow `ALIGN(4)` and are followed by it. -/
def finish (contents : Contents) (counter : Nat) : Nat :=
  align (align (contents.start counter) + contents.size)

def etext : Nat := finish sections.text (finish sections.isrVector flash.origin)

def dataStart : Nat := sections.data.start ram.origin

def sdata : Nat := align sections.dataStart

def edata : Nat := finish sections.data ram.origin

def sbss : Nat := align (sections.bss.start sections.edata)

def ebss : Nat := finish sections.bss sections.edata

/-- `LOADADDR(.data)` -/
def sidata : Nat := alignTo (2 ^ sections.loadAlignmentPower) sections.etext

/-- The image of `.data` begins with the byte at `_sdata`: the start of the
section is aligned already, whatever the alignment of its contents. -/
theorem sdata_eq : sections.sdata = sections.dataStart := by
  have hdvd : 4 ∣ sections.dataStart := dvd_alignTo_pow (by decide) _
  rw [sdata, align, alignTo]
  omega

/-- The link fails if a region overflows. -/
def place : Option Symbols :=
  if h : flash.Holds sections.sidata (sections.edata - sections.dataStart) ∧
      ram.Holds sections.dataStart (sections.ebss - sections.dataStart) then
    some
      { sidata := sections.sidata
        sdata := sections.sdata
        edata := sections.edata
        sbss := sections.sbss
        ebss := sections.ebss
        aligned :=
          ⟨dvd_alignTo_pow (dvd_align _) _, dvd_align _, dvd_align _, dvd_align _, dvd_align _⟩
        ordered :=
          ⟨Nat.le_trans (Nat.le_add_right _ _) (le_align _),
            Nat.le_trans (Contents.le_start _ _) (le_align _),
            Nat.le_trans (Nat.le_add_right _ _) (le_align _)⟩
        loaded := by
          rw [sdata_eq]
          exact h.1
        placed := by
          rw [sdata_eq]
          exact h.2 }
  else none

/-- What the sections hold lies between their symbols. -/
theorem of_place {sections : Sections} {symbols : Symbols} (h : sections.place = some symbols) :
    symbols.sdata + sections.data.size ≤ symbols.edata ∧
      symbols.sbss + sections.bss.size ≤ symbols.ebss := by
  unfold place at h
  split at h
  · cases h
    exact ⟨le_align _, le_align _⟩
  · cases h

end Sections

section Words

variable (memory : Nat → U8)

theorem extractLsb'_wordAt (address : Nat) {k : Nat} (h : k < 4) :
    (wordAt memory address).extractLsb' (8 * k) 8 = memory (address + k) := by
  ext i hi
  obtain rfl | rfl | rfl | rfl : k = 0 ∨ k = 1 ∨ k = 2 ∨ k = 3 := by omega
  all_goals
    simp (disch := omega) [wordAt, decide_eq_true, decide_eq_false]

/-- A word is moved as its four bytes are. -/
theorem putWord_wordAt {destination source : Nat} (h : Clear destination source 4) :
    putWord memory destination (wordAt memory source) = copyUp memory destination source 4 := by
  funext place
  rw [putWord]
  split
  next hinside =>
    have hplace : place = destination + (place - destination) := by omega
    rw [extractLsb'_wordAt memory source (by omega), hplace,
      copyUp_of_clear memory destination source h (by omega), ← hplace]
  next houtside => rw [copyUp_apply, if_neg houtside]

theorem putWord_zero (destination : Nat) :
    putWord memory destination 0 = fillUp memory destination 0 4 := by
  funext place
  rw [putWord, fillUp_apply]
  simp

end Words

section Loops

variable (memory : Nat → U8)

/-- The first loop moves whole words between aligned addresses: together they
are a copy byte by byte. -/
theorem copyData_eq_copyUp {destination source : Nat} (hdestination : 4 ∣ destination)
    (hsource : 4 ∣ source) (hclear : Clear destination source 4) (words : Nat)
    (hplaced : ram.Holds destination (4 * words)) (hloaded : flash.Holds source (4 * words)) :
    copyData (destination + 4 * words) memory destination source =
      some (copyUp memory destination source (4 * words)) := by
  induction words generalizing memory destination source with
  | zero => rw [copyData, Nat.mul_zero, Nat.add_zero, if_neg (Nat.lt_irrefl _), copyUp]
  | succ words ih =>
      obtain ⟨hlow, hhigh⟩ := hplaced
      obtain ⟨hfirst, hlast⟩ := hloaded
      have hread : loadWord memory source = some (wordAt memory source) :=
        if_pos ⟨hsource, .inl ⟨hfirst, by omega⟩⟩
      have hwritten : storeWord memory destination (wordAt memory source) =
          some (copyUp memory destination source 4) := by
        rw [← putWord_wordAt memory hclear]
        exact if_pos ⟨hdestination, hlow, by omega⟩
      have hlimit : destination + 4 * (words + 1) = destination + 4 + 4 * words := by omega
      have hlength : 4 * (words + 1) = 4 + 4 * words := by omega
      have hnext : Clear (destination + 4) (source + 4) 4 := by
        rw [Clear] at hclear ⊢
        omega
      rw [copyData, if_pos (by omega), hread, hlimit, hlength, copyUp_add]
      have hrest := ih (copyUp memory destination source 4) (by omega) (by omega) hnext
        ⟨by omega, by omega⟩ ⟨by omega, by omega⟩
      rw [← hrest]
      simp [hwritten]

theorem clearBss_eq_fillUp {destination : Nat} (hdestination : 4 ∣ destination) (words : Nat)
    (hplaced : ram.Holds destination (4 * words)) :
    clearBss (destination + 4 * words) memory destination =
      some (fillUp memory destination 0 (4 * words)) := by
  induction words generalizing memory destination with
  | zero => rw [clearBss, Nat.mul_zero, Nat.add_zero, if_neg (Nat.lt_irrefl _), fillUp]
  | succ words ih =>
      obtain ⟨hlow, hhigh⟩ := hplaced
      have hwritten : storeWord memory destination 0 = some (fillUp memory destination 0 4) := by
        rw [← putWord_zero]
        exact if_pos ⟨hdestination, hlow, by omega⟩
      have hlimit : destination + 4 * (words + 1) = destination + 4 + 4 * words := by omega
      have hlength : 4 * (words + 1) = 4 + 4 * words := by omega
      rw [clearBss, if_pos (by omega), hwritten, hlimit, hlength, fillUp_add]
      exact ih (fillUp memory destination 0 4) (by omega) ⟨by omega, by omega⟩

end Loops

section Handler

variable (symbols : Symbols) (memory : Nat → U8)

/-- The handler returns, and every byte after it: `.data` holds what flash holds
for it, `.bss` is zero, everything else is as it was. -/
theorem resetHandler_apply : ∃ initialised, resetHandler symbols memory = some initialised ∧
    ∀ address, initialised address =
      if symbols.sbss ≤ address ∧ address < symbols.ebss then 0
      else if symbols.sdata ≤ address ∧ address < symbols.edata then
        memory (symbols.sidata + (address - symbols.sdata))
      else memory address := by
  obtain ⟨hsidata, hsdata, hedata, hsbss, hebss⟩ := symbols.aligned
  obtain ⟨hdata, hbetween, hbss⟩ := symbols.ordered
  obtain ⟨hflash, hflashEnd⟩ := symbols.loaded
  obtain ⟨hram, hramEnd⟩ := symbols.placed
  have hapart : flash.origin + flash.length + 4 ≤ ram.origin := by decide
  -- Both regions consist of whole words.
  obtain ⟨dataWords, hdataWords⟩ := Nat.dvd_sub hedata hsdata
  obtain ⟨bssWords, hbssWords⟩ := Nat.dvd_sub hebss hsbss
  have hdataEnd : symbols.edata = symbols.sdata + 4 * dataWords := by omega
  have hbssEnd : symbols.ebss = symbols.sbss + 4 * bssWords := by omega
  have hcopied : copyData symbols.edata memory symbols.sdata symbols.sidata =
      some (copyUp memory symbols.sdata symbols.sidata (4 * dataWords)) := by
    rw [hdataEnd]
    exact copyData_eq_copyUp memory hsdata hsidata (.inr (by omega)) dataWords
      ⟨hram, by omega⟩ ⟨hflash, by omega⟩
  have hcleared := clearBss_eq_fillUp (copyUp memory symbols.sdata symbols.sidata (4 * dataWords))
    hsbss bssWords ⟨by omega, by omega⟩
  refine ⟨_, by rw [resetHandler, hcopied, hbssEnd]; exact hcleared, ?_⟩
  intro address
  rw [fillUp_apply, ← hbssEnd, copyUp_apply, ← hdataEnd]
  apply ite_congr rfl (fun _ => rfl)
  intro _
  split
  next hinside => rw [Nat.mod_eq_of_lt (by omega)]
  next => rfl

/-- Whatever the symbols of the script are: from any memory the handler gets to
`firmware_main` without a fault. The initialised variables have the values of
the image, the others are zero, the rest of the memory is unchanged, the padding
between the two included, and what the variables were before the reset does not
matter. -/
theorem resetHandler_initialises :
    ∃ initialised, resetHandler symbols memory = some initialised ∧
      (∀ offset, symbols.sdata + offset < symbols.edata →
        initialised (symbols.sdata + offset) = memory (symbols.sidata + offset)) ∧
      (∀ address, symbols.sbss ≤ address → address < symbols.ebss → initialised address = 0) ∧
      (∀ address, address < symbols.sdata ∨ symbols.edata ≤ address ∧ address < symbols.sbss ∨
        symbols.ebss ≤ address → initialised address = memory address) ∧
      ∀ other, (∀ address, flash.Holds address 1 → other address = memory address) →
        ∃ again, resetHandler symbols other = some again ∧
          ∀ address, symbols.sdata ≤ address ∧ address < symbols.edata ∨
            symbols.sbss ≤ address ∧ address < symbols.ebss →
            again address = initialised address := by
  obtain ⟨hsdata, hedata, hsbss⟩ := symbols.ordered
  obtain ⟨hflash, hflashEnd⟩ := symbols.loaded
  obtain ⟨initialised, hreset, hvalue⟩ := resetHandler_apply symbols memory
  refine ⟨initialised, hreset, ?_, ?_, ?_, ?_⟩
  · intro offset hoffset
    rw [hvalue, if_neg (by omega), if_pos (by omega), Nat.add_sub_cancel_left]
  · intro address hlow hhigh
    rw [hvalue, if_pos ⟨hlow, hhigh⟩]
  · intro address houtside
    rw [hvalue, if_neg (by omega), if_neg (by omega)]
  · intro other hsame
    obtain ⟨again, hagain, hvalueAgain⟩ := resetHandler_apply symbols other
    refine ⟨again, hagain, ?_⟩
    intro address hinside
    rw [hvalue, hvalueAgain]
    split
    next => rfl
    next hbefore =>
      have himage : symbols.sdata ≤ address ∧ address < symbols.edata := by omega
      rw [if_pos himage, if_pos himage]
      exact hsame _ ⟨by omega, by omega⟩

/-- A program with 17 bytes of initialised variables and 5 of others, which start
at a multiple of 8 behind four bytes of padding. -/
theorem resetHandler_initialises_sample :
    ∃ symbols, (⟨⟨64, 2⟩, ⟨5000, 2⟩, ⟨17, 2⟩, ⟨5, 3⟩, 0⟩ : Sections).place = some symbols ∧
      symbols.edata = 0x20000014 ∧ symbols.sbss = 0x20000018 ∧
      ∃ initialised, resetHandler symbols (fun _ => 7) = some initialised ∧
        initialised 0x20000000 = 7 ∧ initialised 0x20000014 = 7 ∧ initialised 0x2000001c = 0 := by
  obtain ⟨symbols, hsymbols, hsdata, hedata, hsbss, hebss⟩ : ∃ symbols,
      (⟨⟨64, 2⟩, ⟨5000, 2⟩, ⟨17, 2⟩, ⟨5, 3⟩, 0⟩ : Sections).place = some symbols ∧
        symbols.sdata = 0x20000000 ∧ symbols.edata = 0x20000014 ∧ symbols.sbss = 0x20000018 ∧
        symbols.ebss = 0x20000020 := ⟨_, rfl, rfl, rfl, rfl, rfl⟩
  obtain ⟨initialised, hreset, hdata, hbss, hrest, _⟩ :=
    resetHandler_initialises symbols fun _ => 7
  have hfirst := hdata 0 (by omega)
  rw [hsdata] at hfirst
  exact ⟨symbols, hsymbols, hedata, hsbss, initialised, hreset, hfirst, hrest _ (by omega),
    hbss _ (by omega) (by omega)⟩

end Handler

end Esqh
