import WillPractice.Records.Basic

/-!
# Bitmap files

The part of the format whose pixels are not compressed and have 24 or 32 bits.  A file begins with a
`BITMAPFILEHEADER` and a `BITMAPINFOHEADER`.  The rows of the picture are padded to whole words of
32 bits; they begin at the top if the height in the header is negative, and at the bottom otherwise.

* `Layout`, `readLayout` : what the headers say, if the file is well formed.
* `Layout.place`, `pixel` : where a pixel is, and what it is.
-/

namespace WillPractice

namespace Bmp

/-- The size and the place of the pixels. -/
structure Layout where
  width : ℕ
  height : ℕ
  topDown : Bool
  bitCount : ℕ
  /-- Where the first row begins. -/
  offBits : ℕ
  deriving DecidableEq, Repr

namespace Layout

variable (l : Layout)

/-- The number of bytes of a row. -/
def stride : ℕ := (l.width * l.bitCount + 31) / 32 * 4

/-- Where the pixel in column `x` of row `y` begins, counted from the top. -/
def place (x y : ℕ) : ℕ :=
  l.offBits + (if l.topDown then y else l.height - 1 - y) * l.stride + x * (l.bitCount / 8)

end Layout

/-- The widths of the members of `BITMAPFILEHEADER`. -/
def fileWidths : List ℕ := [2, 4, 2, 2, 4]

/-- The widths of the members of `BITMAPINFOHEADER`. -/
def infoWidths : List ℕ := [4, 4, 4, 2, 2, 4, 4, 4, 4, 4, 4]

/-- What the headers say, if they are right and the pixels are all there. -/
def readLayout (file : List UInt8) : Option Layout :=
  match Records.decode (fileWidths ++ infoWidths) file with
  | some ([bfType, bfSize, _, _, bfOffBits, biSize, biWidth, biHeight, biPlanes, biBitCount,
      biCompression, biSizeImage, _, _, _, _], _) =>
    let l : Layout :=
      { width := (Records.signed32 biWidth).toNat
        height := (Records.signed32 biHeight).natAbs
        topDown := Records.signed32 biHeight < 0
        bitCount := biBitCount
        offBits := bfOffBits }
    if bfType = 0x4D42 ∧ bfSize = file.length ∧ 54 ≤ bfOffBits ∧ biSize = 40 ∧
        0 < l.width ∧ 0 < l.height ∧ biPlanes = 1 ∧ (biBitCount = 24 ∨ biBitCount = 32) ∧
        biCompression = 0 ∧ (biSizeImage = 0 ∨ biSizeImage = l.height * l.stride) ∧
        bfOffBits + l.height * l.stride ≤ file.length then some l
    else none
  | _ => none

/-- The bytes of a pixel. -/
def pixel (file : List UInt8) (l : Layout) (x y : ℕ) : List UInt8 :=
  (file.drop (l.place x y)).take (l.bitCount / 8)

end Bmp

end WillPractice
