import AccessList.Policy.Basic

/-!
# Building terms

A term starts from its name; every step appends to one field and leaves the others as they are.
-/

namespace AccessList.Term

def named (name : String) : Term := { name }

def withAction (t : Term) (a : Action) : Term := { t with actions := t.actions ++ [a] }

def withProtocol (t : Term) (protocol : String) : Term := { t with protocols := t.protocols ++ [protocol] }

def withOption (t : Term) (option : String) : Term := { t with options := t.options ++ [option] }

def withComment (t : Term) (comment : String) : Term := { t with comments := t.comments ++ [comment] }

def withAddress (t : Term) (side : Side) (a : Tagged) : Term :=
  match side with
  | .source => { t with sources := t.sources ++ [a] }
  | .destination => { t with destinations := t.destinations ++ [a] }

def withPorts (t : Term) (side : Side) (r : PortRange) : Term :=
  match side with
  | .source => { t with sourcePorts := t.sourcePorts ++ [r] }
  | .destination => { t with destinationPorts := t.destinationPorts ++ [r] }

end AccessList.Term
