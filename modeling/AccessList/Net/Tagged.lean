import AccessList.Net.CidrText

/-!
# Blocks with the network name they were declared under

Subtraction keeps the name: what is left of a block is still called what the block was.
-/

namespace AccessList

structure Tagged where
  block : Cidr
  token : Option String := none
deriving DecidableEq

namespace Tagged

def family (a : Tagged) : Family := a.block.family

def text (a : Tagged) : String :=
  match a.token with
  | some token => a.block.text ++ " (" ++ token ++ ")"
  | none => a.block.text

def ofFamily (family : Family) (as : List Tagged) : List Tagged := as.filter (·.family == family)

def without (as excludes : List Tagged) : List Tagged :=
  as.flatMap fun a => (a.block.minusAll (excludes.map (·.block))).map ({ block := ·, token := a.token })

end Tagged

end AccessList
