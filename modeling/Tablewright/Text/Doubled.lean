
namespace Tablewright.Text

def doubleChars (quote : Char) : List Char → List Char
  | [] => []
  | c :: rest =>
    if c = quote then quote :: quote :: doubleChars quote rest else c :: doubleChars quote rest

def enclose (quote : Char) (s : String) : String :=
  String.ofList (quote :: doubleChars quote s.toList ++ [quote])

end Tablewright.Text
