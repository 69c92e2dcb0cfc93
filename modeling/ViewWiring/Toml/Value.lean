namespace ViewWiring.Toml

/-- A value of a document. Fractions and dates have no place in the records read here, so a
document that holds one is refused. -/
inductive Value
  | string (text : String)
  | integer (number : Int)
  | boolean (flag : Bool)
  | array (items : List Value)
  | table (entries : List (String × Value))

end ViewWiring.Toml
