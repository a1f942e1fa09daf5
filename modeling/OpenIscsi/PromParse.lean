import OpenIscsi.Lib.CString

/-!
# Open Firmware device paths

The scanner of `prom_lex.l` and the grammar of `prom_parse.y`. The parser is written as it
runs with one token of lookahead, with the conflicts of the grammar settled as the
generated tables settle them, and yields the reductions whose actions touch the device.
The tokens `"::"` and `":"` of the grammar are never returned by the scanner, so the
alternatives that need them are left out.
-/

namespace PromParse

open CString

/-- The named tokens. -/
inductive Kind
  | chosen | vdevice | vdevinst | vdevdev | vdevraw | obpqual | busname | ipv4 | iqn | bootdev
  | obpparm | hex4 | hex16 | filename
  deriving DecidableEq

/-- A token with its text, a character returned as itself, or the end of the process at
a match of `YYLMAX` bytes. -/
inductive Token
  | str (kind : Kind) (text : List UInt8)
  | char (c : UInt8)
  | tooLong
  deriving DecidableEq

/-- The array that holds the text of a match. -/
def yylmax : Nat := 8192

/-- The size of a semantic value. -/
def strLen : Nat := 16384

/-! ## Scanner -/

def isDigit (b : UInt8) : Bool := 48 ≤ b && b ≤ 57

def isXdigit (b : UInt8) : Bool := isDigit b || (65 ≤ b && b ≤ 70) || (97 ≤ b && b ≤ 102)

def isAlnum (b : UInt8) : Bool := isDigit b || (65 ≤ b && b ≤ 90) || (97 ≤ b && b ≤ 122)

/-- `[ \t\n]` -/
def isBlank (b : UInt8) : Bool := b == 32 || b == 9 || b == 10

/-- The longest of these words that the text starts with. -/
def literal (words : List String) (s : List UInt8) : Nat :=
  ((words.map ascii).filter (·.isPrefixOf s)).foldl (fun n w => max n w.length) 0

/-- The length of the run at the start of the text, up to a bound. -/
def span (p : UInt8 → Bool) (most : Nat) (s : List UInt8) : Nat := ((s.take most).takeWhile p).length

/-- One to three digits, followed by this many more groups behind dots. -/
def dotted : Nat → List UInt8 → Option Nat
  | 0, s => if span isDigit 3 s = 0 then none else some (span isDigit 3 s)
  | groups + 1, s =>
    if span isDigit 3 s = 0 then none
    else match s.drop (span isDigit 3 s) with
      | 46 :: rest => (dotted groups rest).map (span isDigit 3 s + 1 + ·)
      | _ => none

/-- The length of the longest match of a named rule, zero without one. -/
def Kind.longest (s : List UInt8) : Kind → Nat
  | .chosen => literal ["bootpath", "bootargs", "iscsi-bootargs", "nas-bootdevice"] s
  | .vdevice => literal ["vdevice"] s
  | .vdevinst => literal ["gscsi"] s
  | .vdevdev => literal ["dev"] s
  | .vdevraw => literal ["rawio"] s
  | .obpqual => literal ["bootp", "ipv6", "iscsi", "dhcpv6"] s
  | .busname => literal ["ata", "i2c", "ide", "pci", "sata", "scsi", "usb", "lhea"] s
  | .ipv4 => (dotted 3 s).getD 0
  | .iqn =>
    let n := span (fun b => b == 45 || isAlnum b || b == 58 || b == 46) 219 (s.drop 4)
    if (ascii "iqn.").isPrefixOf s && n != 0 then 4 + n else 0
  | .bootdev =>
    literal (["cdrom", "disk", "ethernet", "iscsi-toe", "sd"] ++
      (List.range 10).map (fun n => "iscsi-disk" ++ toString n)) s
  | .obpparm =>
    literal ["blksize", "bootp-retries", "chapid", "chappw", "ciaddr", "dhcp", "filename", "giaddr",
      "ichapid", "ichappw", "ilun", "iname", "iport", "isid", "isns", "itname", "siaddr", "slp",
      "subnet-mask", "tftp-retries"] s
  | .hex4 => span isXdigit 4 s
  | .hex16 => if 5 ≤ span isXdigit 16 s then span isXdigit 16 s else 0
  | .filename =>
    let n := span (fun b => b == 45 || isAlnum b || b == 92 || b == 46) s.length (s.drop 1)
    if s.head? = some 92 && n != 0 then 1 + n else 0

/-- The named rules in the order of the file. -/
def rules : List Kind :=
  [.chosen, .vdevice, .vdevinst, .vdevdev, .vdevraw, .obpqual, .busname, .ipv4, .iqn, .bootdev,
    .obpparm, .hex4, .hex16, .filename]

/-- The longest match wins, and the first rule among those of one length. -/
def winner (s : List UInt8) : Option Kind × Nat :=
  rules.foldl (fun best k => if best.2 < k.longest s then (some k, k.longest s) else best) (none, 0)

/-- The tokens that `yylex` returns for a text of at most this length. -/
def lex : Nat → List UInt8 → List Token
  | 0, _ => []
  | _ + 1, [] => []
  | fuel + 1, b :: s =>
    match winner (b :: s) with
    | (some kind, len) =>
      if yylmax ≤ len then [.tooLong]
      else .str kind ((b :: s).take len) :: lex fuel ((b :: s).drop len)
    | (none, _) =>
      if isBlank b then
        let len := span isBlank (b :: s).length (b :: s)
        if yylmax ≤ len then [.tooLong] else lex fuel ((b :: s).drop len)
      else .char b :: lex fuel s

/-- The tokens behind `yy_scan_string`. -/
def tokens (s : List UInt8) : List Token := lex s.length s

/-! ## Grammar -/

/-- `snprintf` into a semantic value. -/
def snprintf (s : List UInt8) : List UInt8 := (strlcpy s strLen).1

def bus : List Token → Option (List UInt8 × List Token)
  | .str .busname n :: .char 64 :: .str .hex4 a :: .char 44 :: .str .hex4 b :: rest =>
    some (snprintf (n ++ ascii "@" ++ a ++ ascii "," ++ b), rest)
  | .str .busname n :: .char 64 :: .str .hex4 a :: rest => some (snprintf (n ++ ascii "@" ++ a), rest)
  | .str .busname n :: .char 64 :: .str .hex16 a :: rest => some (snprintf (n ++ ascii "@" ++ a), rest)
  | .str .busname n :: .char 44 :: .str .hex4 a :: .char 64 :: .str .hex16 b :: rest =>
    some (snprintf (n ++ ascii "," ++ a ++ ascii "@" ++ b), rest)
  | .str .busname n :: rest => some (n, rest)
  | _ => none

def moreBusses : Nat → List UInt8 → List Token → Option (List UInt8 × List Token)
  | fuel + 1, text, .char 47 :: .str .busname n :: rest =>
    match bus (.str .busname n :: rest) with
    | some (b, rest) => moreBusses fuel (snprintf (text ++ ascii "/" ++ b)) rest
    | none => none
  | _, text, rest => some (text, rest)

def busses (ts : List Token) : Option (List UInt8 × List Token) :=
  match bus ts with
  | some (text, rest) => moreBusses ts.length text rest
  | none => none

def bootdev : List Token → Option (List UInt8 × List Token)
  | .char 47 :: .str .bootdev d :: .char 58 :: rest => some (snprintf (ascii "/" ++ d), rest)
  | .char 47 :: .str .bootdev d :: .char 64 :: .str .hex4 a :: .char 58 :: rest =>
    some (snprintf (ascii "/" ++ d ++ ascii "@" ++ a), rest)
  | .char 47 :: .str .bootdev d :: .char 64 :: .str .hex4 a :: .char 44 :: .str .hex4 b ::
      .char 58 :: rest =>
    some (snprintf (ascii "/" ++ d ++ ascii "@" ++ a ++ ascii "," ++ b), rest)
  | _ => none

/-- A comma behind the partition is always shifted, so a file name has to follow it. -/
def diskpart : List Token → Option (List Token)
  | .char 58 :: .str .hex4 _ :: .char 44 :: .str .filename _ :: rest => some rest
  | .char 58 :: .str .hex4 _ :: .char 44 :: _ => none
  | .char 58 :: .str .hex4 _ :: rest => some rest
  | _ => none

def disklabel : List Token → Option (List Token)
  | .str .hex4 _ :: rest => diskpart rest
  | .char 64 :: .str .hex4 _ :: .char 44 :: .str .hex4 _ :: rest => diskpart rest
  | ts => diskpart ts

def vdevParm : List Token → Option (List Token)
  | .str .vdevdev _ :: .char 61 :: .str .chosen _ :: rest => some rest
  | _ => none

/-- The alternatives of `vdev_parms` behind a comma. -/
def moreVdevParms : Nat → List Token → Option (List Token)
  | fuel + 1, .char 44 :: .str .vdevraw _ :: rest => moreVdevParms fuel rest
  | fuel + 1, .char 44 :: rest => (vdevParm rest).bind (moreVdevParms fuel)
  | _, rest => some rest

def vdevParms : List Token → Option (List Token)
  | .char 58 :: rest => (vdevParm rest).bind (moreVdevParms rest.length)
  | _ => none

structure ParamText where
  kind : Kind
  name : List UInt8
  value : List UInt8
  deriving DecidableEq

/-- What the actions are called with: the texts of the qualifiers, the parameters behind
them, and the device path where an alternative of `devpath` stores one. -/
structure Reductions where
  quals : List (List UInt8)
  params : List ParamText
  devPath : Option (List UInt8)
  accepted : Bool
  deriving DecidableEq

/-- `obp_qual`, with the text of a qualifier that is stored. -/
def obpQual : List Token → List (List UInt8) × Option (List Token)
  | .str .obpqual q :: rest => ([q], some rest)
  | ts => ([], vdevParm ts)

/-- Whether a qualifier starts here. -/
def startsQual : List Token → Bool
  | .str .obpqual _ :: _ => true
  | .str .vdevdev _ :: _ => true
  | _ => false

def obpQuals : Nat → List Token → List (List UInt8) × Option (List Token)
  | 0, _ => ([], none)
  | fuel + 1, ts =>
    match obpQual ts with
    | (quals, some (.char 44 :: rest)) =>
      if startsQual rest then (quals ++ (obpQuals fuel rest).1, (obpQuals fuel rest).2)
      else (quals, some (.char 44 :: rest))
    | (quals, rest) => (quals, rest)

/-- The value of a parameter; a short number is never taken for a part of an address. -/
def Kind.isValue : Kind → Bool
  | .hex16 | .ipv4 | .iqn | .hex4 | .filename => true
  | _ => false

def obpParam : List Token → List ParamText × Option (List Token)
  | .str .hex4 _ :: rest => ([], some rest)
  | .str .obpparm name :: .char 61 :: .str kind value :: rest =>
    if kind.isValue then ([⟨kind, name, value⟩], some rest) else ([], none)
  | _ => ([], none)

/-- Whether what follows a comma is a parameter rather than a disk label. -/
def startsParam : List Token → Bool
  | .str .obpparm _ :: _ => true
  | .str .hex4 _ :: .char 58 :: _ => false
  | .str .hex4 _ :: _ => true
  | _ => false

/-- The alternatives of `obp_params` behind the first parameter. -/
def moreObpParams : Nat → List Token → List ParamText × Option (List Token)
  | fuel + 1, .char 44 :: rest =>
    if startsParam rest then
      match obpParam rest with
      | (params, some rest) =>
        (params ++ (moreObpParams fuel rest).1, (moreObpParams fuel rest).2)
      | (params, none) => (params, none)
    else
      match disklabel rest with
      | some rest => moreObpParams fuel rest
      | none => ([], none)
  | _, rest => ([], some rest)

def obpParams : List Token → List ParamText × Option (List Token)
  | .char 44 :: rest =>
    match obpParam rest with
    | (params, some rest) =>
      (params ++ (moreObpParams rest.length rest).1, (moreObpParams rest.length rest).2)
    | (params, none) => (params, none)
  | _ => ([], none)

/-- Qualifiers and parameters, and what is left behind them. -/
def qualsParams (ts : List Token) : List (List UInt8) × List ParamText × Option (List Token) :=
  match obpQuals ts.length ts with
  | (quals, some rest) => (quals, (obpParams rest).1, (obpParams rest).2)
  | (quals, none) => (quals, [], none)

/-- A syntax error behind these reductions. -/
def rejected (quals : List (List UInt8)) (params : List ParamText) : Reductions :=
  ⟨quals, params, none, false⟩

/-- The alternatives of `devpath` behind `'/' busses bootdev`. -/
def behindBootdev (path : List UInt8) (ts : List Token) : Reductions :=
  if ts = [] then ⟨[], [], none, true⟩
  else if startsQual ts then
    match qualsParams ts with
    | (quals, params, some []) => ⟨quals, params, some path, true⟩
    | (quals, params, some rest) =>
      if disklabel rest = some [] then ⟨quals, params, some path, true⟩ else rejected quals params
    | (quals, params, none) => rejected quals params
  else if disklabel ts = some [] then ⟨[], [], some path, true⟩
  else rejected [] []

/-- The alternative of `devpath` with a virtual device, which stores no path. -/
def behindVdevice (ts : List Token) : Reductions :=
  match (bootdev ts).bind (fun r => vdevParms r.2) with
  | none => rejected [] []
  | some ts =>
    match qualsParams ts with
    | (quals, params, some rest) =>
      if disklabel rest = some [] then ⟨quals, params, none, true⟩ else rejected quals params
    | (quals, params, none) => rejected quals params

def yyparse : List Token → Reductions
  | [.char 47] => ⟨[], [], none, true⟩
  | .char 47 :: .str .vdevice _ :: .char 47 :: .str .vdevinst _ :: rest => behindVdevice rest
  | .char 47 :: rest =>
    match busses rest with
    | none => rejected [] []
    | some (b, rest) =>
      match bootdev rest with
      | none => rejected [] []
      | some (d, rest) => behindBootdev (ascii "/" ++ b ++ d) rest
  | _ => rejected [] []

end PromParse
