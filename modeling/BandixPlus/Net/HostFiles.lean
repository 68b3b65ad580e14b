import BandixPlus.Lib.Maps
import BandixPlus.Net.Text

/-! # Host names in the router's files

`utils.rs`, `list_hostname_by_mac`: the hosts in the configuration of the DHCP server, which counts first,
and the leases that it has given. The configuration is read in one pass over its lines, which keeps the
section that it is in.

* `scan_hosts`: the pass finds what the sections say that the lines are divided into.
* `lookup_listHostnameByMac`: an address has the name of the last section that names it, or of the last
  lease.
* `lookup_written_hosts`: hosts that are written as `uci` writes them are found again. -/

namespace BandixPlus.Net.HostFiles

open BandixPlus.Common BandixPlus.Lib.Maps BandixPlus.Net.Text

/-! ### The configuration -/

def startsWith (s pattern : String) : Bool := pattern.toList.isPrefixOf s.toList

def quotedBy (quote : Char) (val : String) : Bool :=
  val.toList.head? = some quote && val.toList.getLast? = some quote && 2 ≤ strLen val

/-- The text between quotes, if it is in quotes. -/
def unquote (val : String) : String :=
  if quotedBy '\'' val || quotedBy '"' val then .ofList (val.toList.drop 1).dropLast else val

/-- `parts.join(" ")`. -/
def joinSpaces (parts : List String) : String := .ofList ([' '].intercalate (parts.map String.toList))

/-- The variables of the loop of `parse_hostname_from_ubus_uci_dhcp`. -/
structure HostScan where
  result : HashMap Mac String
  inHost : Bool
  currentMacs : List Mac
  currentName : Option String

namespace HostScan

def start : HostScan := ⟨∅, false, [], none⟩

/-- At the end of a host its addresses get its name. -/
def finish (s : HostScan) : HostScan :=
  if s.inHost then
    match s.currentName with
    | some name =>
      { s with
        result := s.currentMacs.foldl (fun m mac => m.insert mac name) s.result
        currentMacs := []
        currentName := none }
    | none => s
  else s

def option (s : HostScan) (key val : String) : HostScan :=
  if key = "mac" then
    { s with currentMacs := s.currentMacs ++
        (splitWhitespace val).filterMap fun t => (macFromStr t).toOption }
  else if key = "name" then { s with currentName := some val }
  else s

def line (s : HostScan) (line : String) : HostScan :=
  let line := trim line
  if startsWith line "config host" then
    { s.finish with inHost := true, currentMacs := [], currentName := none }
  else if startsWith line "config " || startsWith line "package " then { s.finish with inHost := false }
  else if s.inHost && (startsWith line "option " || startsWith line "list ") then
    match splitWhitespace line with
    | _ :: key :: val :: vals => s.option key (unquote (joinSpaces (val :: vals)))
    | _ => s
  else s

end HostScan

/-- `dhcp` is the content of `/etc/config/dhcp`, if it can be read. -/
def parseHostnameFromUbusUciDhcp (dhcp : Option String) : Option (HashMap Mac String) :=
  dhcp.map fun content => ((lines content).foldl HostScan.line .start).finish.result

/-! ### The leases -/

def leaseLine (result : HashMap Mac String) (line : String) : HashMap Mac String :=
  let line := trim line
  if line = "" || startsWith line "#" then result
  else
    match splitWhitespace line with
    | _ :: mac :: _ :: hostname :: _ =>
      if hostname = "" || hostname = "*" then result
      else
        match macFromStr mac with
        | .ok macArr => result.insert macArr hostname
        | .error _ => result
    | _ => result

/-- `leases` is the content of `/tmp/dhcp.leases`, if it is there and can be read. -/
def parseDnsmasqLeaseFile (leases : Option String) : Option (HashMap Mac String) :=
  leases.map fun content => (lines content).foldl leaseLine ∅

def listHostnameByMac (o : IterOrder) (dhcp leases : Option String) : HashMap Mac String :=
  let result := (parseDnsmasqLeaseFile leases).getD ∅
  match parseHostnameFromUbusUciDhcp dhcp with
  | some ubusMap => (o.order ubusMap.entries).foldl (fun m e => m.insert e.1 e.2) result
  | none => result

/-! ### Sections -/

/-- What a line says. -/
inductive Statement where
  | host
  /-- A section of another type, or a package. -/
  | other
  | option (key val : String)
  | nothing

def Statement.header : Statement → Bool
  | .host => true
  | .other => true
  | _ => false

def statement (line : String) : Statement :=
  let line := trim line
  if startsWith line "config host" then .host
  else if startsWith line "config " || startsWith line "package " then .other
  else if startsWith line "option " || startsWith line "list " then
    match splitWhitespace line with
    | _ :: key :: val :: vals => .option key (unquote (joinSpaces (val :: vals)))
    | _ => .nothing
  else .nothing

/-- The statements of each host: what follows its header up to the next one. -/
def hosts : List Statement → List (List Statement)
  | [] => []
  | .host :: rest => rest.takeWhile (fun x => !x.header) :: hosts rest
  | _ :: rest => hosts rest

/-- The addresses that a statement lists. -/
def Statement.macs : Statement → List Mac
  | .option key val =>
    if key = "mac" then (splitWhitespace val).filterMap fun t => (macFromStr t).toOption else []
  | _ => []

def Statement.name : Statement → Option String
  | .option key val => if key = "name" then some val else none
  | _ => none

/-- The addresses of a host. -/
def macsOf (host : List Statement) : List Mac := host.flatMap Statement.macs

/-- The name of a host, the last one if there are several. -/
def nameOf (host : List Statement) : Option String := (host.filterMap Statement.name).getLast?

/-- The host has the address and a name. -/
def names (mac : Mac) (host : List Statement) : Bool := mac ∈ macsOf host && (nameOf host).isSome

/-- **The name that the configuration has for an address**: that of the last host with it. -/
def configuredName (content : String) (mac : Mac) : Option String :=
  (((hosts ((lines content).map statement)).filter (names mac)).getLast?).bind nameOf

/-- The lease of a line. -/
def lease (line : String) : Option (Mac × String) :=
  let line := trim line
  if line = "" || startsWith line "#" then none
  else
    match splitWhitespace line with
    | _ :: mac :: _ :: hostname :: _ =>
      if hostname = "" || hostname = "*" then none
      else (macFromStr mac).toOption.map fun mac => (mac, hostname)
    | _ => none

/-- **The name that the leases have for an address**, the last one. -/
def leasedName (content : String) (mac : Mac) : Option String :=
  ((((lines content).filterMap lease).filter fun l => l.1 = mac).getLast?).map Prod.snd

/-! ### One pass -/

namespace HostScan

/-- What a line does, by what it says. -/
def apply (s : HostScan) : Statement → HostScan
  | .host => { s.finish with inHost := true, currentMacs := [], currentName := none }
  | .other => { s.finish with inHost := false }
  | .option key val => if s.inHost then s.option key val else s
  | .nothing => s

theorem line_eq (s : HostScan) (line : String) : s.line line = s.apply (statement line) := by
  unfold HostScan.line statement
  dsimp only
  split_ifs with hhost hother hoption hline hline
  · rfl
  · rfl
  · rw [Bool.and_eq_true] at hoption
    split
    · exact (if_pos hoption.1).symm
    · rfl
  · rw [Bool.and_eq_true] at hoption
    exact absurd hoption.2 hline
  · have hout : ¬ s.inHost = true := fun hin => hoption (by rw [hin, hline]; rfl)
    split
    · exact (if_neg hout).symm
    · rfl
  · rfl

end HostScan

/-- Some addresses get a name. -/
def enter (m : HashMap Mac String) (host : List Statement) : HashMap Mac String :=
  match nameOf host with
  | some name => (macsOf host).foldl (fun m mac => m.insert mac name) m
  | none => m

/-- The pass is inside of this host, or of none. -/
structure Reads (s : HostScan) (current : Option (List Statement)) : Prop where
  inHost : s.inHost = current.isSome
  macs : ∀ host ∈ current, s.currentMacs = macsOf host
  name : ∀ host ∈ current, s.currentName = nameOf host

/-- The hosts that the pass has yet to finish. -/
def remaining : Option (List Statement) → List Statement → List (List Statement)
  | some host, ss => (host ++ ss.takeWhile fun x => !x.header) :: hosts ss
  | none, ss => hosts ss

theorem remaining_header (current : Option (List Statement)) {x : Statement} (hx : x.header = true)
    (ss : List Statement) : remaining current (x :: ss) = current.toList ++ hosts (x :: ss) := by
  cases current with
  | none => rfl
  | some host =>
    have hstop : (x :: ss).takeWhile (fun x => !x.header) = [] :=
      List.takeWhile_cons_of_neg (by rw [hx]; exact Bool.false_ne_true)
    show (host ++ (x :: ss).takeWhile fun x => !x.header) :: hosts (x :: ss) = host :: hosts (x :: ss)
    rw [hstop, List.append_nil]

theorem remaining_concat (host : List Statement) {x : Statement} (hx : x.header = false)
    (ss : List Statement) : remaining (some (host ++ [x])) ss = remaining (some host) (x :: ss) := by
  have hgo : (x :: ss).takeWhile (fun x => !x.header) = x :: ss.takeWhile fun x => !x.header :=
    List.takeWhile_cons_of_pos (by rw [hx]; rfl)
  have hhosts : hosts (x :: ss) = hosts ss := by
    cases x with
    | host => cases hx
    | _ => rfl
  unfold remaining
  dsimp only
  rw [hgo, hhosts, List.append_assoc]
  rfl

section
variable {s : HostScan} {current : Option (List Statement)}

theorem result_finish (h : Reads s current) : s.finish.result = current.toList.foldl enter s.result := by
  unfold HostScan.finish
  rw [h.inHost]
  cases current with
  | none => rfl
  | some host =>
    rw [h.name host rfl, h.macs host rfl]
    show (if true = true then _ else _ : HostScan).result = enter s.result host
    unfold enter
    rw [if_pos rfl]
    cases nameOf host <;> rfl

theorem macsOf_concat (host : List Statement) (x : Statement) :
    macsOf (host ++ [x]) = macsOf host ++ x.macs := by
  unfold macsOf
  rw [List.flatMap_append, List.flatMap_singleton]

theorem nameOf_concat (host : List Statement) (x : Statement) :
    nameOf (host ++ [x]) = x.name.or (nameOf host) := by
  unfold nameOf
  rw [List.filterMap_append]
  cases hname : x.name with
  | none => simp [hname]
  | some name => simp [hname]

/-- Another statement of the host. -/
theorem reads_option {host : List Statement} (h : Reads s (some host)) (key val : String) :
    Reads (s.option key val) (some (host ++ [.option key val])) := by
  have hmacs := h.macs host rfl
  have hname := h.name host rfl
  unfold HostScan.option
  split_ifs with hmac hkey
  · refine ⟨h.inHost, fun _ heq => ?_, fun _ heq => ?_⟩
    · obtain rfl := Option.some.inj heq
      have hlisted : Statement.macs (.option key val) =
          (splitWhitespace val).filterMap fun t => (macFromStr t).toOption := if_pos hmac
      rw [macsOf_concat, hlisted, ← hmacs]
    · obtain rfl := Option.some.inj heq
      have hnone : Statement.name (.option key val) = none := if_neg (by rw [hmac]; decide)
      rw [nameOf_concat, hnone]
      exact hname
  · refine ⟨h.inHost, fun _ heq => ?_, fun _ heq => ?_⟩
    · obtain rfl := Option.some.inj heq
      have hnone : Statement.macs (.option key val) = [] := if_neg hmac
      rw [macsOf_concat, hnone, List.append_nil]
      exact hmacs
    · obtain rfl := Option.some.inj heq
      have hsome : Statement.name (.option key val) = some val := if_pos hkey
      rw [nameOf_concat, hsome]
      rfl
  · refine ⟨h.inHost, fun _ heq => ?_, fun _ heq => ?_⟩
    · obtain rfl := Option.some.inj heq
      have hnone : Statement.macs (.option key val) = [] := if_neg hmac
      rw [macsOf_concat, hnone, List.append_nil]
      exact hmacs
    · obtain rfl := Option.some.inj heq
      have hnone : Statement.name (.option key val) = none := if_neg hkey
      rw [nameOf_concat, hnone]
      exact hname

/-- **The pass finds the hosts** that the lines are divided into. -/
theorem scan_hosts (h : Reads s current) (ss : List Statement) :
    (ss.foldl HostScan.apply s).finish.result = (remaining current ss).foldl enter s.result := by
  induction ss generalizing s current with
  | nil =>
    rw [List.foldl_nil, result_finish h]
    cases current with
    | none => rfl
    | some host =>
      show [host].foldl enter s.result = [host ++ []].foldl enter s.result
      rw [List.append_nil]
  | cons x ss ih =>
    rw [List.foldl_cons]
    cases x with
    | host =>
      have hreads : Reads (s.apply .host) (some []) := ⟨rfl, by rintro _ ⟨⟩; rfl, by rintro _ ⟨⟩; rfl⟩
      have hresult : (s.apply .host).result = current.toList.foldl enter s.result := result_finish h
      rw [ih hreads, hresult, ← List.foldl_append, remaining_header current rfl]
      rfl
    | other =>
      have hreads : Reads (s.apply .other) none := ⟨rfl, (by rintro _ ⟨⟩), (by rintro _ ⟨⟩)⟩
      have hresult : (s.apply .other).result = current.toList.foldl enter s.result := result_finish h
      rw [ih hreads, hresult, ← List.foldl_append, remaining_header current rfl]
      rfl
    | option key val =>
      cases current with
      | none =>
        have hsame : s.apply (.option key val) = s := if_neg (by rw [h.inHost]; exact Bool.false_ne_true)
        rw [hsame, ih h]
        rfl
      | some host =>
        have hoption : s.apply (.option key val) = s.option key val := if_pos h.inHost
        have hresult : (s.option key val).result = s.result := by
          unfold HostScan.option
          split_ifs <;> rfl
        rw [hoption, ih (reads_option h key val), hresult, remaining_concat host rfl]
    | nothing =>
      cases current with
      | none => exact ih h
      | some host =>
        have hreads : Reads s (some (host ++ [.nothing])) := by
          refine ⟨h.inHost, fun _ heq => ?_, fun _ heq => ?_⟩
          · obtain rfl := Option.some.inj heq
            rw [macsOf_concat, h.macs host rfl]
            exact (List.append_nil _).symm
          · obtain rfl := Option.some.inj heq
            rw [nameOf_concat, h.name host rfl]
            rfl
        show (ss.foldl HostScan.apply s).finish.result = _
        rw [ih hreads, remaining_concat host rfl]

end

theorem parseHostname_eq (content : String) : parseHostnameFromUbusUciDhcp (some content) =
    some ((hosts ((lines content).map statement)).foldl enter ∅) := by
  have hreads : Reads .start none := ⟨rfl, (by rintro _ ⟨⟩), (by rintro _ ⟨⟩)⟩
  have hscan := scan_hosts hreads ((lines content).map statement)
  have hline : HostScan.line = fun s l => s.apply (statement l) := funext fun s => funext s.line_eq
  unfold parseHostnameFromUbusUciDhcp
  rw [Option.map_some, hline]
  rw [List.foldl_map] at hscan
  exact congrArg some hscan

/-! ### What is found -/

theorem lookup_enter (m : HashMap Mac String) (host : List Statement) (mac : Mac) :
    (enter m host).lookup mac = if names mac host then nameOf host else m.lookup mac := by
  have hinsert : ∀ (macs : List Mac) (name : String) (m : HashMap Mac String),
      (macs.foldl (fun m mac => m.insert mac name) m).lookup mac =
        if mac ∈ macs then some name else m.lookup mac := by
    intro macs name
    induction macs with
    | nil => exact fun m => (if_neg List.not_mem_nil).symm
    | cons a macs ih =>
      intro m
      rw [List.foldl_cons, ih, lookup_insert_eq]
      simp only [List.mem_cons]
      split_ifs with hmem hor ha hor ha <;> simp_all
  unfold enter names
  cases hname : nameOf host with
  | none => simp
  | some name =>
    dsimp only
    rw [hinsert]
    simp

theorem lookup_foldl_enter (hs : List (List Statement)) (m : HashMap Mac String) (mac : Mac) :
    (hs.foldl enter m).lookup mac = (((hs.filter (names mac)).getLast?).bind nameOf).or (m.lookup mac) := by
  induction hs using List.reverseRecOn with
  | nil => rfl
  | append_singleton hs host ih =>
    rw [List.foldl_append, List.foldl_cons, List.foldl_nil, lookup_enter, List.filter_append]
    split_ifs with hnames
    · have hsome : (nameOf host).isSome = true := (Bool.and_eq_true_iff.mp hnames).2
      obtain ⟨name, hname⟩ := Option.isSome_iff_exists.mp hsome
      rw [List.filter_cons_of_pos hnames, List.filter_nil, List.getLast?_concat, Option.bind_some, hname]
      rfl
    · rw [List.filter_cons_of_neg hnames, List.filter_nil, List.append_nil]
      exact ih

theorem lookup_foldl_leaseLine (ls : List String) (mac : Mac) : (ls.foldl leaseLine ∅).lookup mac =
    (((ls.filterMap lease).filter fun l => l.1 = mac).getLast?).map Prod.snd := by
  have hline : ∀ (m : HashMap Mac String) (line : String), leaseLine m line =
      match lease line with
      | some l => m.insert l.1 l.2
      | none => m := by
    intro m line
    unfold leaseLine lease
    dsimp only
    split_ifs
    · rfl
    · split
      · split_ifs
        · rfl
        · next _ mac _ _ _ _ _ => cases macFromStr mac <;> rfl
      · rfl
  induction ls using List.reverseRecOn with
  | nil => rfl
  | append_singleton ls line ih =>
    rw [List.foldl_append, List.foldl_cons, List.foldl_nil, hline, List.filterMap_append, List.filter_append]
    cases hlease : lease line with
    | none =>
      rw [List.filterMap_cons_none hlease, List.filterMap_nil, List.filter_nil, List.append_nil]
      exact ih
    | some l =>
      rw [List.filterMap_cons_some hlease, List.filterMap_nil, lookup_insert_eq]
      by_cases hmac : l.1 = mac
      · have hone : [l].filter (fun l => l.1 = mac) = [l] := by simp [hmac]
        rw [if_pos hmac.symm, hone, List.getLast?_concat]
        rfl
      · have hnone : [l].filter (fun l => l.1 = mac) = [] := by simp [hmac]
        rw [if_neg (Ne.symm hmac), hnone, List.append_nil]
        exact ih

/-- **The name of an address** is that of the configuration, or else that of the leases. -/
theorem lookup_listHostnameByMac (o : IterOrder) (dhcp leases : Option String) (mac : Mac) :
    (listHostnameByMac o dhcp leases).lookup mac =
      (dhcp.bind fun content => configuredName content mac).or
        (leases.bind fun content => leasedName content mac) := by
  have hleases : ((parseDnsmasqLeaseFile leases).getD ∅).lookup mac =
      leases.bind fun content => leasedName content mac := by
    cases leases with
    | none => rfl
    | some content => exact lookup_foldl_leaseLine (lines content) mac
  unfold listHostnameByMac
  dsimp only
  cases dhcp with
  | none => exact hleases
  | some content =>
    rw [parseHostname_eq]
    dsimp only
    have hnodup : (o.order ((hosts ((lines content).map statement)).foldl enter ∅).entries).NodupKeys :=
      nodup_order_keys o _
    rw [lookup_foldl_insert (fun _ name => name) mac hnodup, dlookup_order, lookup_foldl_enter, hleases,
      AList.lookup_empty, Option.or_none, Option.map_id']
    rfl

/-! ### Hosts as they are written -/

structure Host where
  name : String
  macs : List Mac

def quote (s : String) : String := .ofList ('\'' :: s.toList ++ ['\''])

/-- The line of an option or of one value of a list. -/
def setting (kind key val : String) : String :=
  .ofList ('\t' :: (kind.toList ++ ' ' :: (key.toList ++ ' ' :: (quote val).toList)))

/-- The lines of a host, as `uci` writes them. -/
def Host.lines (h : Host) : List String :=
  "" :: "config host" :: setting "option" "name" h.name ::
    h.macs.map fun mac => setting "list" "mac" (macToString mac)

def unlines (ls : List String) : String := .ofList (ls.flatMap fun l => l.toList ++ ['\n'])

/-- A value whose blanks are single spaces, as the words of a line are joined again. -/
def Plain (val : String) : Prop := joinSpaces (splitWhitespace (quote val)) = quote val

instance (val : String) : Decidable (Plain val) := by
  unfold Plain
  infer_instance

/-! ### Lines and words -/

theorem lines_unlines {ls : List String} (h : ∀ l ∈ ls, '\n' ∉ l.toList ∧ l.toList.getLast? ≠ some '\r') :
    lines (unlines ls) = ls := by
  unfold lines unlines
  dsimp only
  rw [String.toList_ofList]
  induction ls with
  | nil => rfl
  | cons l ls ih =>
    obtain ⟨hl, hls⟩ := List.forall_mem_cons.mp h
    obtain ⟨seg, segs, hsegs⟩ := List.exists_cons_of_ne_nil
      (List.splitOn_ne_nil '\n' (ls.flatMap fun l => l.toList ++ ['\n']))
    have ih := ih hls
    rw [hsegs] at ih
    rw [List.flatMap_cons, List.append_assoc, List.singleton_append,
      List.splitOn_append_cons_self_of_not_mem hl.1, hsegs, List.dropLast_cons_cons, List.map_cons,
      if_neg hl.2, List.getLast?_cons_cons, List.cons_append, List.map_cons, ih, String.ofList_toList]

theorem splitWhitespace_word {word rest : List Char} (hne : word ≠ [])
    (hword : ∀ c ∈ word, isWhitespace c = false) :
    splitWhitespace (.ofList (word ++ ' ' :: rest)) = .ofList word :: splitWhitespace (.ofList rest) := by
  unfold splitWhitespace
  rw [String.toList_ofList, String.toList_ofList,
    List.splitOnP_append_cons_of_forall_mem hword ' ' (by decide)]
  simp [hne]

theorem splitWhitespace_single {word : List Char} (hne : word ≠ [])
    (hword : ∀ c ∈ word, isWhitespace c = false) : splitWhitespace (.ofList word) = [.ofList word] := by
  unfold splitWhitespace
  rw [String.toList_ofList, List.splitOnP_eq_singleton hword]
  simp [hne]

/-- A text that begins with a letter has a first word. -/
theorem splitWhitespace_ne_nil {c : Char} {cs : List Char} (hc : isWhitespace c = false) :
    splitWhitespace (.ofList (c :: cs)) ≠ [] := by
  unfold splitWhitespace
  rw [String.toList_ofList, List.splitOnP_cons_eq_if_modifyHead, if_neg (ne_true_of_eq_false hc)]
  obtain ⟨seg, segs, hsegs⟩ := List.exists_cons_of_ne_nil (List.splitOnP_ne_nil isWhitespace cs)
  rw [hsegs, List.modifyHead_cons, List.filter_cons_of_pos (by simp)]
  simp

theorem trim_of_ends {blank cs : List Char} (hblank : ∀ c ∈ blank, isWhitespace c = true)
    (hhead : ∀ c ∈ cs.head?, isWhitespace c = false) (hlast : ∀ c ∈ cs.getLast?, isWhitespace c = false) :
    trim (.ofList (blank ++ cs)) = .ofList cs := by
  have hkeep : ∀ l : List Char, (∀ c ∈ l.head?, isWhitespace c = false) → l.dropWhile isWhitespace = l := by
    intro l hl
    cases l with
    | nil => rfl
    | cons c rest => exact List.dropWhile_cons_of_neg (ne_true_of_eq_false (hl c rfl))
  unfold trim
  rw [String.toList_ofList, List.dropWhile_append_of_pos hblank, hkeep cs hhead,
    hkeep cs.reverse (by rwa [List.head?_reverse]), List.reverse_reverse]

theorem getLast_quote (s : String) : (quote s).toList.getLast? = some '\'' := by
  unfold quote
  rw [String.toList_ofList, List.getLast?_concat]

theorem unquote_quote (s : String) : unquote (quote s) = s := by
  have hquoted : quotedBy '\'' (quote s) = true := by
    have hsize : 2 ≤ strLen (quote s) := by
      unfold strLen quote
      rw [String.toList_ofList, List.map_append, List.sum_append, List.map_cons, List.sum_cons]
      show 2 ≤ 1 + _ + 1
      omega
    have hhead : (quote s).toList.head? = some '\'' := by
      unfold quote
      rw [String.toList_ofList]
      rfl
    unfold quotedBy
    rw [decide_eq_true hsize, hhead, getLast_quote]
    rfl
  unfold unquote
  rw [hquoted, Bool.true_or, if_pos rfl]
  unfold quote
  rw [String.toList_ofList]
  simp

/-! ### What the lines say -/

/-- A word without blanks. -/
def Word (s : String) : Prop := s.toList ≠ [] ∧ (s.toList.all fun c => !isWhitespace c) = true

theorem Word.notBlank {s : String} (h : Word s) : ∀ c ∈ s.toList, isWhitespace c = false := fun c hc => by
  simpa using List.all_eq_true.mp h.2 c hc

theorem statement_setting {kind key val : String} (hkind : kind = "option" ∨ kind = "list") (hkey : Word key)
    (hval : Plain val) : statement (setting kind key val) = .option key val := by
  have hquote : isWhitespace '\'' = false := by decide
  obtain ⟨w, ws, hws⟩ := List.exists_cons_of_ne_nil
    (@splitWhitespace_ne_nil '\'' (val.toList ++ ['\'']) hquote)
  have hjoin : joinSpaces (w :: ws) = quote val := hws ▸ hval
  have hwords : splitWhitespace (.ofList (kind.toList ++ ' ' :: (key.toList ++ ' ' :: (quote val).toList))) =
      kind :: key :: w :: ws := by
    have hword : Word kind := by
      unfold Word
      rcases hkind with rfl | rfl <;> decide
    rw [splitWhitespace_word hword.1 hword.notBlank, splitWhitespace_word hkey.1 hkey.notBlank,
      String.ofList_toList,
      String.ofList_toList, String.ofList_toList]
    exact congrArg _ (congrArg _ hws)
  have htrim : trim (setting kind key val) =
      .ofList (kind.toList ++ ' ' :: (key.toList ++ ' ' :: (quote val).toList)) := by
    have htab : ∀ c ∈ ['\t'], isWhitespace c = true := List.forall_mem_singleton.mpr (by decide)
    refine @trim_of_ends ['\t'] _ htab (fun c hc => ?_) (fun c hc => ?_)
    · rcases hkind with rfl | rfl
      · obtain rfl : 'o' = c := Option.some.inj hc
        decide
      · obtain rfl : 'l' = c := Option.some.inj hc
        decide
    · have hend : (kind.toList ++ ' ' :: (key.toList ++ ' ' :: (quote val).toList)).getLast? = some '\'' := by
        simp [List.getLast?_append, List.getLast?_cons, getLast_quote]
      obtain rfl := Option.some.inj (hend.symm.trans hc)
      exact hquote
  have hstart : ∀ pattern,
      startsWith (.ofList (kind.toList ++ ' ' :: (key.toList ++ ' ' :: (quote val).toList))) pattern =
        pattern.toList.isPrefixOf (kind.toList ++ ' ' :: (key.toList ++ ' ' :: (quote val).toList)) := by
    intro pattern
    unfold startsWith
    rw [String.toList_ofList]
  unfold statement
  dsimp only
  rw [htrim, hwords, hstart, hstart, hstart, hstart, hstart]
  rcases hkind with rfl | rfl
  · show Statement.option key (unquote (joinSpaces (w :: ws))) = _
    rw [hjoin, unquote_quote]
  · show Statement.option key (unquote (joinSpaces (w :: ws))) = _
    rw [hjoin, unquote_quote]

theorem mem_intercalate {sep : Char} {parts : List (List Char)} {c : Char} (h : c ∈ [sep].intercalate parts) :
    c = sep ∨ ∃ part ∈ parts, c ∈ part := by
  induction parts with
  | nil => cases h
  | cons part rest ih =>
    cases rest with
    | nil =>
      rw [List.intercalate_singleton] at h
      exact Or.inr ⟨part, List.mem_cons_self, h⟩
    | cons part' rest =>
      rw [List.intercalate_cons_cons, List.append_assoc] at h
      rcases List.mem_append.mp h with h | h
      · exact Or.inr ⟨part, List.mem_cons_self, h⟩
      · rcases List.mem_cons.mp h with rfl | h
        · exact Or.inl rfl
        · exact (ih h).imp_right fun ⟨p, hp, hc⟩ => ⟨p, List.mem_cons_of_mem _ hp, hc⟩

theorem not_isWhitespace_of_mem_splitWhitespace {s word : String} (h : word ∈ splitWhitespace s) :
    ∀ c ∈ word.toList, isWhitespace c = false := by
  have hsplit : ∀ cs : List Char, ∀ part ∈ cs.splitOnP isWhitespace, ∀ c ∈ part, isWhitespace c = false := by
    intro cs
    induction cs with
    | nil =>
      rw [List.splitOnP_nil]
      simp
    | cons c cs ih =>
      rw [List.splitOnP_cons_eq_if_modifyHead]
      split_ifs with hc
      · exact List.forall_mem_cons.mpr ⟨fun c hc => absurd hc List.not_mem_nil, ih⟩
      · obtain ⟨seg, segs, hsegs⟩ := List.exists_cons_of_ne_nil (List.splitOnP_ne_nil isWhitespace cs)
        rw [hsegs] at ih ⊢
        obtain ⟨hseg, hrest⟩ := List.forall_mem_cons.mp ih
        rw [List.modifyHead_cons]
        exact List.forall_mem_cons.mpr ⟨List.forall_mem_cons.mpr ⟨eq_false_of_ne_true hc, hseg⟩, hrest⟩
  unfold splitWhitespace at h
  obtain ⟨part, hpart, rfl⟩ := List.mem_map.mp h
  rw [String.toList_ofList]
  exact hsplit _ part (List.mem_filter.mp hpart).1

/-- A plain value is on one line. -/
theorem newline_not_mem_quote {val : String} (h : Plain val) : '\n' ∉ (quote val).toList := by
  intro hmem
  rw [← h] at hmem
  unfold joinSpaces at hmem
  rw [String.toList_ofList] at hmem
  rcases mem_intercalate hmem with heq | ⟨part, hpart, hc⟩
  · cases heq
  · obtain ⟨word, hword, rfl⟩ := List.mem_map.mp hpart
    have hblank := not_isWhitespace_of_mem_splitWhitespace hword '\n' hc
    cases hblank

theorem word_macToString (mac : Mac) : ∀ c ∈ (macToString mac).toList, isWhitespace c = false := by
  intro c hc
  unfold macToString at hc
  rw [String.toList_ofList] at hc
  rcases mem_intercalate hc with rfl | ⟨part, hpart, hc⟩
  · decide
  · obtain ⟨b, -, rfl⟩ := List.mem_map.mp hpart
    exact (isDigit_of_mem_hexByte hc).notSpace

theorem plain_macToString (mac : Mac) : Plain (macToString mac) := by
  have hquote : ∀ c ∈ '\'' :: (macToString mac).toList ++ ['\''], isWhitespace c = false := by
    intro c hc
    rcases List.mem_append.mp hc with hc | hc
    · rcases List.mem_cons.mp hc with rfl | hc
      · decide
      · exact word_macToString mac c hc
    · rw [List.mem_singleton.mp hc]
      decide
  unfold Plain quote
  rw [splitWhitespace_single (by simp) hquote]
  unfold joinSpaces
  rw [List.map_singleton, List.intercalate_singleton, String.ofList_toList]

theorem macs_statement (mac : Mac) : Statement.macs (.option "mac" (macToString mac)) = [mac] := by
  have hne : (macToString mac).toList ≠ [] := by
    intro hnil
    have hread := macFromStr_macToString mac
    have hempty : macToString mac = "" := String.toList_inj.mp hnil
    rw [hempty] at hread
    cases hread
  have hwords : splitWhitespace (macToString mac) = [macToString mac] := by
    have h := splitWhitespace_single hne (word_macToString mac)
    rwa [String.ofList_toList] at h
  show (splitWhitespace (macToString mac)).filterMap (fun t => (macFromStr t).toOption) = [mac]
  rw [hwords, List.filterMap_cons, macFromStr_macToString]
  rfl

/-! ### The round trip -/

/-- What a configuration needs of a host. -/
def summary (host : List Statement) : List Mac × Option String := (macsOf host, nameOf host)

/-- What the lines of a host say. -/
def Host.statements (h : Host) : List Statement :=
  .nothing :: .host :: .option "name" h.name :: h.macs.map fun mac => .option "mac" (macToString mac)

theorem statement_blank : statement "" = .nothing := by
  simp [statement, startsWith, trim]

theorem statement_host : statement "config host" = .host := by
  have htrim : trim "config host" = "config host" := by decide
  have hstart : startsWith "config host" "config host" = true := by decide
  unfold statement
  rw [htrim]
  exact if_pos hstart

theorem statement_name {name : String} (hname : Plain name) :
    statement (setting "option" "name" name) = .option "name" name := by
  have hword : Word "name" := by
    unfold Word
    decide
  have hkind : "option" = "option" ∨ "option" = "list" := Or.inl rfl
  exact statement_setting hkind hword hname

theorem statement_mac (mac : Mac) :
    statement (setting "list" "mac" (macToString mac)) = .option "mac" (macToString mac) := by
  have hword : Word "mac" := by
    unfold Word
    decide
  have hkind : "list" = "option" ∨ "list" = "list" := Or.inr rfl
  exact statement_setting hkind hword (plain_macToString mac)

theorem statements_lines {h : Host} (hname : Plain h.name) : h.lines.map statement = h.statements := by
  have hmacs : (h.macs.map fun mac => setting "list" "mac" (macToString mac)).map statement =
      h.macs.map fun mac => .option "mac" (macToString mac) := by
    rw [List.map_map]
    refine List.map_congr_left fun mac _ => ?_
    rw [Function.comp_apply, statement_mac]
  unfold Host.lines Host.statements
  rw [List.map_cons, List.map_cons, List.map_cons, hmacs, statement_blank, statement_host,
    statement_name hname]

theorem hosts_append {body : List Statement} (h : ∀ x ∈ body, x.header = false) (rest : List Statement) :
    hosts (body ++ rest) = hosts rest := by
  induction body with
  | nil => rfl
  | cons x body ih =>
    obtain ⟨hx, hbody⟩ := List.forall_mem_cons.mp h
    have hskip : hosts (x :: (body ++ rest)) = hosts (body ++ rest) := by
      cases x with
      | host => cases hx
      | _ => rfl
    rw [List.cons_append, hskip, ih hbody]

/-- The settings of a host say what it is. -/
theorem summary_settings (h : Host) : summary (.option "name" h.name ::
    h.macs.map fun mac => .option "mac" (macToString mac)) = (h.macs, some h.name) := by
  have hmacs : ∀ macs : List Mac,
      macsOf (macs.map fun mac => .option "mac" (macToString mac)) = macs := by
    intro macs
    unfold macsOf
    rw [List.flatMap_map]
    simp only [macs_statement]
    exact List.flatMap_singleton' macs
  have hnames : (h.macs.map fun mac => Statement.option "mac" (macToString mac)).filterMap Statement.name =
      [] := by
    rw [List.filterMap_map]
    exact List.filterMap_eq_nil_iff.mpr fun mac _ => rfl
  have hnamed : nameOf (.option "name" h.name :: h.macs.map fun mac => .option "mac" (macToString mac)) =
      some h.name := by
    have hfirst : Statement.name (.option "name" h.name) = some h.name := rfl
    unfold nameOf
    rw [List.filterMap_cons_some hfirst, hnames]
    rfl
  unfold summary
  rw [hnamed]
  refine Prod.ext ?_ rfl
  exact hmacs h.macs

theorem hosts_statements (hs : List Host) :
    (hosts (hs.flatMap Host.statements)).map summary = hs.map fun h => (h.macs, some h.name) := by
  induction hs with
  | nil => rfl
  | cons h hs ih =>
    let settings : List Statement :=
      .option "name" h.name :: h.macs.map fun mac => .option "mac" (macToString mac)
    have hsettings : ∀ x ∈ settings, x.header = false := by
      refine List.forall_mem_cons.mpr ⟨rfl, fun x hx => ?_⟩
      obtain ⟨mac, -, rfl⟩ := List.mem_map.mp hx
      rfl
    -- the next host begins with a blank line
    have hnext : (hs.flatMap Host.statements).takeWhile (fun x => !x.header) = [] ∨
        (hs.flatMap Host.statements).takeWhile (fun x => !x.header) = [.nothing] := by
      cases hs with
      | nil => exact Or.inl rfl
      | cons h hs => exact Or.inr rfl
    have hsummary : summary (settings ++ (hs.flatMap Host.statements).takeWhile fun x => !x.header) =
        (h.macs, some h.name) := by
      rw [← summary_settings h]
      rcases hnext with heq | heq
      · rw [heq, List.append_nil]
      · rw [heq]
        unfold summary
        rw [macsOf_concat, nameOf_concat]
        exact congrArg (fun l => (l, _)) (List.append_nil _)
    have hall : ∀ x ∈ settings, (!x.header) = true := fun x hx => by rw [hsettings x hx]; rfl
    show ((settings ++ hs.flatMap Host.statements).takeWhile (fun x => !x.header) ::
      hosts (settings ++ hs.flatMap Host.statements)).map summary = _
    rw [List.takeWhile_append_of_pos hall, hosts_append hsettings, List.map_cons, hsummary, ih]
    rfl

/-- The configuration has for an address the name of the last host that lists it. -/
theorem configuredName_lines {hs : List Host} (h : ∀ host ∈ hs, Plain host.name) (mac : Mac) :
    configuredName (unlines (hs.flatMap Host.lines)) mac =
      ((hs.filter fun host => mac ∈ host.macs).getLast?).map Host.name := by
  have hline : ∀ l ∈ hs.flatMap Host.lines, '\n' ∉ l.toList ∧ l.toList.getLast? ≠ some '\r' := by
    intro l hl
    obtain ⟨host, hhost, hl⟩ := List.mem_flatMap.mp hl
    have hsetting : ∀ {kind key val : String}, Plain val → '\n' ∉ kind.toList → '\n' ∉ key.toList →
        '\n' ∉ (setting kind key val).toList ∧ (setting kind key val).toList.getLast? ≠ some '\r' := by
      intro kind key val hval hkind hkey
      have hquote := newline_not_mem_quote hval
      unfold setting
      rw [String.toList_ofList]
      refine ⟨by simp [hkind, hkey, hquote], ?_⟩
      simp [List.getLast?_append, List.getLast?_cons, getLast_quote]
    unfold Host.lines at hl
    rcases List.mem_cons.mp hl with rfl | hl
    · decide
    · rcases List.mem_cons.mp hl with rfl | hl
      · decide
      · rcases List.mem_cons.mp hl with rfl | hl
        · exact hsetting (h host hhost) (by decide) (by decide)
        · obtain ⟨mac, -, rfl⟩ := List.mem_map.mp hl
          exact hsetting (plain_macToString mac) (by decide) (by decide)
  have hstatements : (hs.flatMap Host.lines).map statement = hs.flatMap Host.statements := by
    rw [List.map_flatMap]
    exact List.flatMap_congr fun host hhost => statements_lines (h host hhost)
  have hsummary : configuredName (unlines (hs.flatMap Host.lines)) mac =
      ((((hosts (hs.flatMap Host.statements)).map summary).filter
        fun s => mac ∈ s.1 && s.2.isSome).getLast?).bind Prod.snd := by
    unfold configuredName
    rw [lines_unlines hline, hstatements, List.filter_map, List.getLast?_map, Option.bind_map]
    rfl
  rw [hsummary, hosts_statements, List.filter_map, List.getLast?_map, Option.bind_map]
  have hfilter : hs.filter ((fun s : List Mac × Option String => mac ∈ s.1 && s.2.isSome) ∘
      fun host => (host.macs, some host.name)) = hs.filter fun host => mac ∈ host.macs :=
    List.filter_congr fun host _ => Bool.and_true _
  rw [hfilter]
  cases (hs.filter fun host => mac ∈ host.macs).getLast? <;> rfl

section Sample

/-- Two hosts with one address; the name of the second has a blank. -/
def homeHosts : List Host :=
  [⟨"printer", [.replicate 6 0x0a]⟩, ⟨"media box", [.replicate 6 0x0c, .replicate 6 0x0a]⟩]

/-- A lease of that address and one of another. -/
def homeLeases : String :=
  unlines ["1732000000 0a:0a:0a:0a:0a:0a 192.168.1.10 old-box *",
    "1732000000 0e:0e:0e:0e:0e:0e 192.168.1.14 phone *"]

end Sample

end BandixPlus.Net.HostFiles
