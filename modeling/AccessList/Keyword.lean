import AccessList.Protocol
import AccessList.Icmp
import AccessList.PortRange

/-!
# Keywords of the device

The device shows well-known ports and ICMP types by keyword; other numbers stand for themselves.
-/

namespace AccessList.Keyword

def tcpPorts : List (Nat × String) :=
  [(179, "bgp"), (19, "chargen"), (514, "cmd"), (13, "daytime"), (9, "discard"), (53, "domain"), (7, "echo"),
   (512, "exec"), (79, "finger"), (21, "ftp"), (20, "ftp-data"), (70, "gopher"), (101, "hostname"),
   (113, "ident"), (194, "irc"), (543, "klogin"), (544, "kshell"), (513, "login"), (515, "lpd"), (119, "nntp"),
   (496, "pim-auto-rp"), (109, "pop2"), (110, "pop3"), (25, "smtp"), (111, "sunrpc"), (49, "tacacs"),
   (517, "talk"), (23, "telnet"), (37, "time"), (540, "uucp"), (43, "whois"), (80, "www")]

def udpPorts : List (Nat × String) :=
  [(512, "biff"), (68, "bootpc"), (67, "bootps"), (9, "discard"), (195, "dnsix"), (53, "domain"), (7, "echo"),
   (500, "isakmp"), (434, "mobile-ip"), (42, "nameserver"), (138, "netbios-dgm"), (137, "netbios-ns"),
   (139, "netbios-ss"), (4500, "non500-isakmp"), (123, "ntp"), (496, "pim-auto-rp"), (520, "rip"),
   (161, "snmp"), (162, "snmptrap"), (111, "sunrpc"), (514, "syslog"), (49, "tacacs"), (517, "talk"),
   (69, "tftp"), (37, "time"), (513, "who"), (177, "xdmcp")]

def icmpTypes : List (Nat × String) :=
  [(6, "alternate-address"), (31, "conversion-error"), (8, "echo"), (0, "echo-reply"),
   (16, "information-reply"), (15, "information-request"), (18, "mask-reply"), (17, "mask-request"),
   (32, "mobile-redirect"), (12, "parameter-problem"), (5, "redirect"), (9, "router-advertisement"),
   (10, "router-solicitation"), (4, "source-quench"), (11, "time-exceeded"), (14, "timestamp-reply"),
   (13, "timestamp-request"), (30, "traceroute"), (3, "unreachable")]

def icmp6Types : List (Nat × String) :=
  [(1, "unreachable"), (2, "packet-too-big"), (3, "time-exceeded"), (4, "parameter-problem"),
   (128, "echo-request"), (129, "echo-reply")]

def ofNumber (table : List (Nat × String)) (n : Nat) : String := (table.lookup n).getD (toString n)

def port (protocol : String) (p : Port) : String :=
  if Protocol.denotes protocol "tcp" then ofNumber tcpPorts p
  else if Protocol.denotes protocol "udp" then ofNumber udpPorts p
  else toString p.val

def icmpType : Family → Nat → String
  | .inet => ofNumber icmpTypes
  | .inet6 => ofNumber icmp6Types

end AccessList.Keyword
