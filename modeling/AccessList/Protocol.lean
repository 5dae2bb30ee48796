import AccessList.Text.Numeral

/-!
# Protocol names and numbers

A policy may give a protocol by name or by number.
-/

namespace AccessList.Protocol

def numbers : List (String × Nat) :=
  [("hopopt", 0), ("icmp", 1), ("igmp", 2), ("ggp", 3), ("ipencap", 4), ("tcp", 6), ("egp", 8), ("igp", 9),
   ("udp", 17), ("rdp", 27), ("ipv6", 41), ("ipv6-route", 43), ("fragment", 44), ("rsvp", 46), ("gre", 47),
   ("esp", 50), ("ah", 51), ("icmpv6", 58), ("ipv6-nonxt", 59), ("ipv6-opts", 60), ("ospf", 89), ("pim", 103),
   ("vrrp", 112), ("l2tp", 115), ("sctp", 132)]

def number? (name : String) : Option Nat := numbers.lookup name

def denotes (protocol name : String) : Bool :=
  protocol == name ||
    (match number? name with
     | some n => Text.unsigned? 255 protocol.toList == some n
     | none => false)

end AccessList.Protocol
