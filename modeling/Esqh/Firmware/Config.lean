import Esqh.Firmware.Types

/-!
`src/config.c`: bounded text copy and comparison, the default configuration and
its validity check.
-/

namespace Esqh

open Memory

/-- The bytes of a C string literal, its terminator included. -/
def cString (characters : List Char) : List U8 :=
  characters.map (fun character => BitVec.ofNat 8 character.toNat) ++ [0]

def esqhVersion : List U8 := cString ['0', '.', '1', '.', '0']

def esqhBaseline : List U8 :=
  cString ['E', 'S', 'Q', 'H', '-', 'B', 'L', '-', '0', '.', '1', '.', '0']

/-- The source text of a string argument, as the array it is read from. -/
def text (bytes : List U8) : Vector U8 bytes.length := ⟨bytes.toArray, by simp⟩

/-- The comparison loop, from `index` on with `remaining` rounds to go. -/
def textEqualFrom {n m : Nat} (left : Vector U8 n) (right : Vector U8 m) (index : Nat) :
    Nat → Access Bool
  | 0 => .ok true
  | remaining + 1 => do
      let l ← read left index
      let r ← read right index
      if l ≠ r then .ok false
      else if l = 0 then .ok true
      else textEqualFrom left right (index + 1) remaining

def textEqual {n m : Nat} (left : Vector U8 n) (right : Vector U8 m) (capacity : Nat) :
    Access Bool :=
  textEqualFrom left right 0 capacity

/-- The second loop of the text copy: zero bytes up to the capacity. -/
def clearFrom {n : Nat} (destination : Vector U8 n) (index : Nat) : Nat → Access (Vector U8 n)
  | 0 => .ok destination
  | remaining + 1 => do
      let destination ← write destination index 0
      clearFrom destination (index + 1) remaining

/-- The first loop of the text copy, from `index` on with `remaining` bytes of
capacity left. The last byte of the capacity is never taken by a character. -/
def copyTextFrom {n m : Nat} (destination : Vector U8 n) (source : Vector U8 m) (index : Nat) :
    Nat → Access (Vector U8 n)
  | 0 => .ok destination
  | remaining + 1 => do
      let character ← read source index
      if character ≠ 0 ∧ 0 < remaining then
        let destination ← write destination index character
        copyTextFrom destination source (index + 1) remaining
      else
        clearFrom destination index (remaining + 1)

def copyText {n m : Nat} (destination : Ptr (Vector U8 n)) (capacity : Nat)
    (source : Vector U8 m) : Access (Ptr (Vector U8 n)) :=
  match destination with
  | none => .ok none
  | some destination =>
    if capacity = 0 then .ok (some destination)
    else do
      let destination ← copyTextFrom destination source 0 capacity
      .ok (some destination)

/-- Fill the caller's configuration in. Its former contents are overwritten
field by field, the two texts through `copyText`. -/
def configDefault (config : Ptr Config) : Access (Ptr Config) :=
  match config with
  | none => .ok none
  | some config => do
      let version ← copyText (some config.version) 8 (text esqhVersion)
      let baseline ← copyText (some config.baseline) 20 (text esqhBaseline)
      .ok (some
        { watchdogTimeoutMs := watchdogDefaultMs
          minimumSetpoint := -1000
          maximumSetpoint := 1000
          enabledInterfaceMask := 0x0f
          version := version.getD config.version
          baseline := baseline.getD config.baseline })

def configIsValid (config : Ptr Config) : Access Bool :=
  match config with
  | none => .ok false
  | some config =>
    if config.watchdogTimeoutMs = 0 ∨ config.watchdogTimeoutMs > 1000 then .ok false
    else if config.minimumSetpoint ≥ config.maximumSetpoint then .ok false
    else if config.enabledInterfaceMask &&& 0x0f = 0 ∨
        config.enabledInterfaceMask &&& ~~~0x0f ≠ 0 then .ok false
    else do
      -- `&&` compares the baseline only when the versions agree
      let sameVersion ← textEqual config.version (text esqhVersion) 8
      if sameVersion then textEqual config.baseline (text esqhBaseline) 20 else .ok false

/-- What `configDefault` fills a configuration in with. -/
def defaultConfig : Config :=
  { watchdogTimeoutMs := watchdogDefaultMs
    minimumSetpoint := -1000
    maximumSetpoint := 1000
    enabledInterfaceMask := 0x0f
    version := #v[48, 46, 49, 46, 48, 0, 0, 0]
    baseline := #v[69, 83, 81, 72, 45, 66, 76, 45, 48, 46, 49, 46, 48, 0, 0, 0, 0, 0, 0, 0] }

end Esqh
