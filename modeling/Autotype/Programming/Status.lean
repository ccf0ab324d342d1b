/-!
# Answers in one byte

Every reply begins with a status: all is well, or one of four refusals.
-/

namespace Autotype

/-- Why a request was refused. -/
inductive Refusal where
  /-- There is no such command, or no command at all. -/
  | invalidCommand
  /-- The address is not one of the store's. -/
  | invalidAddress
  /-- The length is not one that can be asked for there. -/
  | invalidLength
  /-- The checksum is not that of the script. -/
  | checksumMismatch
  deriving DecidableEq, Repr

/-- A refusal in words. -/
def Refusal.message : Refusal → String
  | .invalidCommand => "unknown or empty command"
  | .invalidAddress => "address outside the store"
  | .invalidLength => "length zero, too large, or past the end of the region"
  | .checksumMismatch => "checksum mismatch"

/-- How a request was received. -/
inductive Status where
  | ok
  | refused (why : Refusal)
  deriving DecidableEq, Repr

namespace Status

/-- A status as it is sent. -/
def code : Status → UInt8
  | .ok => 0
  | .refused .invalidCommand => 1
  | .refused .invalidAddress => 2
  | .refused .invalidLength => 3
  | .refused .checksumMismatch => 4

/-- The status that a byte stands for. -/
def ofCode? (b : UInt8) : Option Status :=
  [ok, refused .invalidCommand, refused .invalidAddress, refused .invalidLength,
    refused .checksumMismatch].find? (·.code == b)

theorem ofCode?_code (s : Status) : ofCode? s.code = some s := by
  cases s with
  | ok => rfl
  | refused why => cases why <;> rfl

end Status

end Autotype
