
namespace Karst.Text

def whiteSpace : List Nat :=
  [0x9, 0xa, 0xb, 0xc, 0xd, 0x20, 0x85, 0xa0, 0x1680, 0x2000, 0x2001, 0x2002, 0x2003, 0x2004,
    0x2005, 0x2006, 0x2007, 0x2008, 0x2009, 0x200a, 0x2028, 0x2029, 0x202f, 0x205f, 0x3000]

def isWhiteSpace (c : Char) : Bool := whiteSpace.contains c.toNat

def trim (text : List Char) : List Char :=
  ((text.dropWhile isWhiteSpace).reverse.dropWhile isWhiteSpace).reverse

/-- The pieces of a text between the occurrences of a character; one more than there are of it. -/
def split (separator : Char) : List Char → List (List Char)
  | [] => [[]]
  | c :: rest =>
      let pieces := split separator rest
      if c = separator then [] :: pieces
      else match pieces with
        | [] => [[c]]
        | piece :: others => (c :: piece) :: others

end Karst.Text
