/-!
# Machine words

Positions and sizes of buffers are held in machine words, integers of 64 bits with a sign.
`Word.fits` says which integers fit one (`fits_iff`). A size from `Word.memoryLimit` on fits a
word, but no memory, and a position above `Word.diskLimit` fits a word, but no file.
-/

set_option autoImplicit false

namespace BucketTree.Word

/-- One more than the largest machine word. -/
def bound : Int := 9223372036854775808

/-- An integer fits a machine word. -/
def fits (n : Int) : Bool := -bound ≤ n && n < bound

/-- The number of bytes for which memory has no room: 32 GiB. -/
def memoryLimit : Int := 34359738368

/-- The largest size of a file on disk: the last block of 4 KiB below 16 TiB. -/
def diskLimit : Int := 17592186040320

/-- The machine words are the integers from the negative of the bound up to the bound, which is
excluded. -/
theorem fits_iff (n : Int) : fits n = true ↔ -bound ≤ n ∧ n < bound := by
  unfold fits
  rw [Bool.and_eq_true, decide_eq_true_iff, decide_eq_true_iff]

/-- A number of bytes below the memory limit is a machine word. -/
theorem fits_of_room {size : Nat} (h : (size : Int) < memoryLimit) : fits size = true := by
  rw [fits_iff]
  unfold memoryLimit at h
  unfold bound
  omega

end BucketTree.Word
