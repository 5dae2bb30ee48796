import AccessList.Compile

/-!
# Configuration text from rendered filters

Every filter is a run of lines: what resets it, its remarks, its terms, its end. The text is all the lines of all
the filters, without blanks at their ends.
-/

namespace AccessList

namespace RenderedFilter

/-- Group definitions, the lines that reset the filter, stamps and remarks, the terms, and the end of the filter.
Stamps come after the reset, which would otherwise wipe them out. -/
def parts (services : Services) (f : RenderedFilter) : List String :=
  f.groups.lines ++ f.type.lifecycle f.name ++ services.stamp (f.type.stampLead f.name) false false ++
    (f.header.comments.flatMap Text.lines).map (" remark " ++ ·) ++ [" remark Filter type is " ++ f.type.name] ++
    f.terms.flatMap (·.lines) ++ ["", "exit", ""]

end RenderedFilter

def trimmed (s : String) : String := String.ofList (Text.trimEnd s.toList)

def assemble (services : Services) (fs : List RenderedFilter) : String :=
  "\n".intercalate ((fs.flatMap (·.parts services)).map trimmed)

def renderPolicy (config : Config) (services : Services) (p : Policy) : Except CompileError String :=
  (p.compile config services).outcome.map (assemble services)

end AccessList
