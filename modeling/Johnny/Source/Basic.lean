import Johnny.Text.Basic

namespace Johnny.Source

/-- A line ends at CR LF, at CR or at LF and at no other character. What follows the last
end of line is a line only if it is not empty. -/
def splitLines : List Char → List (List Char)
  | [] => []
  | '\r' :: '\n' :: rest => [] :: splitLines rest
  | '\r' :: rest => [] :: splitLines rest
  | '\n' :: rest => [] :: splitLines rest
  | c :: rest => Text.extendHead c (splitLines rest)

def lines (source : String) : List String :=
  (splitLines source.toList).map String.ofList

def isSeparator (c : Char) : Bool := c = ' ' || c = '\t'

/-- Each run of separators divides a line once, also at its ends: a line that starts with a
separator has an empty first token, one that ends with a separator an empty last one. -/
def splitTokens : List Char → List (List Char)
  | [] => [[]]
  | c :: rest =>
    if isSeparator c then
      if rest.head?.any isSeparator then splitTokens rest else [] :: splitTokens rest
    else Text.extendHead c (splitTokens rest)

def tokens (line : String) : List String :=
  (splitTokens line.toList).map String.ofList

end Johnny.Source
