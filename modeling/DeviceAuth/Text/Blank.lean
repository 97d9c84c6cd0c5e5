/-! Blank characters are the twenty-five of Unicode's `White_Space` property; trimming and
splitting at blanks follow from that one class. -/
namespace DeviceAuth.Text

def isBlank (c : Char) : Bool :=
  let n := c.val
  (9 ≤ n && n ≤ 13) || n == 0x20 || n == 0x85 || n == 0xA0 || n == 0x1680 ||
    (0x2000 ≤ n && n ≤ 0x200A) || n == 0x2028 || n == 0x2029 || n == 0x202F || n == 0x205F ||
    n == 0x3000

def hasBlank (s : String) : Bool :=
  s.toList.any isBlank

def trimList (p : Char → Bool) (cs : List Char) : List Char :=
  ((cs.dropWhile p).reverse.dropWhile p).reverse

def trim (s : String) : String :=
  String.ofList (trimList isBlank s.toList)

/-- The maximal runs of characters outside `p`, in order. -/
def fieldsOutside (p : Char → Bool) (cs : List Char) : List (List Char) :=
  (cs.splitOnP p).filter (!·.isEmpty)

end DeviceAuth.Text
