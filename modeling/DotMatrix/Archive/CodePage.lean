import DotMatrix.Memory

/-! # The character set of old archives

Names in an archive are in code page 437 unless they are marked as UTF-8. Its lower half is ASCII.
-/
namespace DotMatrix.CodePage

/-- The characters of the bytes from `80` on. -/
def upperHalf : String :=
  "ÇüéâäàåçêëèïîìÄÅÉæÆôöòûùÿÖÜ¢£¥₧ƒáíóúñÑªº¿⌐¬½¼¡«»░▒▓│┤╡╢╖╕╣║╗╝╜╛┐" ++
  "└┴┬├─┼╞╟╚╔╩╦╠═╬╧╨╤╥╙╘╒╓╫╪┘┌█▄▌▐▀αßΓπΣσµτΦΘΩδ∞φε∩≡±≥≤⌠⌡÷≈°∙·√ⁿ²■\u00a0"

def character (v : UInt8) : Char :=
  if v < 0x80 then Char.ofNat v.toNat else upperHalf.toList.getD (v.toNat - 0x80) ' '

def decode (name : List UInt8) : String := String.ofList (name.map character)

end DotMatrix.CodePage
