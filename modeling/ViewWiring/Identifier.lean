namespace ViewWiring

/-- Words with a meaning of their own in generated code; no declaration bears one. -/
def reservedWords : List String :=
  ["abstract", "assert", "boolean", "break", "byte", "case", "catch", "char", "class", "const",
    "continue", "default", "do", "double", "else", "enum", "extends", "final", "finally", "float",
    "for", "goto", "if", "implements", "import", "instanceof", "int", "interface", "long",
    "native", "new", "package", "private", "protected", "public", "return", "short", "static",
    "strictfp", "super", "switch", "synchronized", "this", "throw", "throws", "transient", "try",
    "void", "volatile", "while", "true", "false", "null"]

def isIdentifierStart (c : Char) : Bool := c.isAlpha || c == '_' || c == '$'

def isIdentifierPart (c : Char) : Bool := isIdentifierStart c || c.isDigit

/-- An identifier is spelt in letters, digits, underscores and dollar signs, does not begin with
a digit, and is not reserved. -/
def isIdentifier (name : String) : Bool :=
  match name.toList with
  | [] => false
  | c :: cs => isIdentifierStart c && cs.all isIdentifierPart && !reservedWords.contains name

/-- A qualified name is one identifier or several, joined by dots. -/
def isQualifiedName (name : String) : Bool :=
  (name.toList.splitOn '.').all fun part => isIdentifier (String.ofList part)

end ViewWiring
