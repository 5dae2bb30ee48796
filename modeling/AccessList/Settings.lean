import AccessList.Document.Yaml.Node
import AccessList.Document.Reading

/-!
# Settings of the generator

Everything has a default, so that no settings are settings too. On a day they make a configuration.
-/

namespace AccessList

inductive ProtocolForm
  | name
  | number
deriving DecidableEq

def ProtocolForm.text : ProtocolForm → String
  | name => "name"
  | number => "number"

def ProtocolForm.ofText? (s : String) : Option ProtocolForm := [name, number].find? (·.text == s)

structure Settings where
  platform : String := "cisco"
  /-- Terms that expire within so many weeks are reported. -/
  expInfoWeeks : Nat := 2
  today : Option Date := none
  protocolForm : ProtocolForm := .name
  /-- Width of the comments in standard and object-group filters. -/
  commentWidth : Nat := 70
  /-- Length of the remarks in extended and inet6 filters. -/
  remarkMaxLength : Nat := 100
  termNameMaxLength : Nat := 100
deriving DecidableEq

namespace Settings

def maxNumber : Nat := 0xFFFFFFFFFFFFFFFF

def fieldNames : List String :=
  ["platform", "exp_info_weeks", "today", "protocol_form", "comment_width", "remark_max_length",
   "term_name_max_length"]

/-- Unlike in a policy, a field that means nothing is an error. -/
def reader : Reader Settings := fun c d => do
  let (c, fs) ← Reader.record fieldNames true c d
  let stock : Settings := {}
  let number := Reader.natural maxNumber
  pure {
    platform := ← fs.read c "platform" stock.platform Reader.text
    expInfoWeeks := ← fs.read c "exp_info_weeks" stock.expInfoWeeks number
    today := ← fs.read c "today" none (Reader.optional Reader.date)
    protocolForm := ← fs.read c "protocol_form" stock.protocolForm (Reader.named ProtocolForm.ofText?)
    commentWidth := ← fs.read c "comment_width" stock.commentWidth number
    remarkMaxLength := ← fs.read c "remark_max_length" stock.remarkMaxLength number
    termNameMaxLength := ← fs.read c "term_name_max_length" stock.termNameMaxLength number }

def ofYaml? (text : String) : Option Settings :=
  if text.toList.all Text.isBlank then some {} else (Yaml.read? text).bind reader.read

end Settings

structure Config where
  settings : Settings
  today : Date

/-- The day in the settings counts; without one, the local date does. -/
def Settings.on (s : Settings) (localDate : Date) : Config := ⟨s, s.today.getD localDate⟩

namespace Config

def platform (c : Config) : String := c.settings.platform

def warningDate (c : Config) : Date :=
  (c.today.addDays? (min (c.settings.expInfoWeeks * 7) Settings.maxNumber)).getD .greatest

/-- Whether a term that expires on a day is to be reported; expired terms are. -/
def expiresSoon (c : Config) (expiration : Date) : Bool := expiration ≤ c.warningDate

/-- A term no longer counts on the day it expires. -/
def isExpired (c : Config) (expiration : Date) : Bool := expiration ≤ c.today

end Config

end AccessList
