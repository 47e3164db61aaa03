import Koku.Rust.NetPrint
import Koku.Rust.Seen

/-! # Gateways that worked

`lastconn.rs`: the file that keeps the gateways of the last connections for a quick reconnect. What
stands in it after any number of saves is a recency list: the peers of the last saves with one
carrier, the latest first.

* `load`, `save`, `usablePeers`: the source's functions, over a `Toml` that reads what it wrote;
* `usable_peers_recent`: what any saves leave behind for the carrier of the last one;
* `plainToml`: the tables of basic strings, written and read back. -/

namespace Koku.Lastconn

open Rust.Str Rust.Net Rust.Seen List

/-! ### The file -/

/-- What the file holds: the last gateway, how it was reached, and the ones before it. -/
structure LastConnection where
  peer : Text
  profile : Text
  carrier : Text
  recent : List Text

/-- `RECENT_CAP`. -/
def recentCap : ℕ := 8

/-- What is used of the crate `toml`, which reads what it has written. -/
structure Toml where
  encode : LastConnection → Text
  decode : Text → Option LastConnection
  decode_encode : ∀ conn, decode (encode conn) = some conn

/-- `load`, with the text of the file if it can be read. -/
def load (toml : Toml) (file : Option Text) : Option LastConnection := file.bind toml.decode

/-- What `save` is called with. The engine names a carrier in every call. -/
structure Save where
  peer : ScopedAddr
  profile : Text
  carrier : Text
  named : carrier ≠ []

/-- The connection that a save writes, with its list of recent peers. -/
def Save.conn (s : Save) (recent : List Text) : LastConnection :=
  ⟨s.peer.text, s.profile, s.carrier, recent⟩

/-- The loop over the entries that are carried over. -/
def pushEntry (peer : Text) (recent : List Text) (entry : Text) : List Text :=
  if entry ≠ peer ∧ recent.length < recentCap then recent ++ [entry] else recent

/-- `save`, as far as it is written: the file after it. -/
def save (toml : Toml) (file : Option Text) (s : Save) : Option Text :=
  let carriedOver := (((load toml file).filter fun c => c.carrier = [] ∨ c.carrier = s.carrier).map
    LastConnection.recent).getD []
  some (toml.encode (s.conn (carriedOver.foldl (pushEntry s.peer.text) [s.peer.text])))

/-- `usable_peers`: none if the file is about another carrier. -/
def usablePeers (cached : LastConnection) (carrier : Text) : List ScopedAddr :=
  if cached.carrier ≠ [] ∧ cached.carrier ≠ carrier then []
  else keepNew id [] ((cached.peer :: cached.recent).filterMap parseScoped)

/-! ### What is kept -/

variable {toml : Toml}

theorem text_injective : Function.Injective ScopedAddr.text := by
  intro a b h
  have hb := parseScoped_text b
  rw [← h, parseScoped_text] at hb
  exact Option.some.inj hb

theorem filter_map_text (l : List ScopedAddr) (a : ScopedAddr) :
    (l.map ScopedAddr.text).filter (· ≠ a.text) = (l.filter (· ≠ a)).map ScopedAddr.text := by
  rw [filter_map]
  refine congrArg _ (filter_congr fun b _ => ?_)
  simp [text_injective.eq_iff]

theorem foldl_pushEntry (peer : Text) (entries recent : List Text) :
    entries.foldl (pushEntry peer) recent = recent ++
      (entries.filter (· ≠ peer)).take (recentCap - recent.length) := by
  induction entries generalizing recent with
  | nil => simp
  | cons entry entries ih =>
    rw [foldl_cons, ih, pushEntry]
    by_cases hentry : entry = peer
    · rw [if_neg fun h => h.1 hentry, filter_cons_of_neg (by simpa using hentry)]
    · rw [filter_cons_of_pos (by simpa using hentry)]
      by_cases hroom : recent.length < recentCap
      · have hleft : recentCap - recent.length = recentCap - (recent ++ [entry]).length + 1 := by
          rw [length_append, length_singleton]
          omega
        rw [if_pos ⟨hentry, hroom⟩, hleft, take_succ_cons, append_assoc]
        rfl
      · rw [if_neg fun h => hroom h.2, Nat.sub_eq_zero_of_le (Nat.not_lt.mp hroom), take_zero,
          take_zero]

/-- The peers of the last saves with a carrier; the latest save comes first. -/
def lastRun (carrier : Text) (latest : List Save) : List ScopedAddr :=
  (latest.takeWhile (·.carrier = carrier)).map Save.peer

theorem lastRun_cons (last : Save) (earlier : List Save) :
    lastRun last.carrier (last :: earlier) = last.peer :: lastRun last.carrier earlier := by
  simp [lastRun]

theorem recent_eq (peer : ScopedAddr) (run : List ScopedAddr) :
    ((recency recentCap run).map ScopedAddr.text).foldl (pushEntry peer.text) [peer.text] =
      (recency recentCap (peer :: run)).map ScopedAddr.text := by
  have hcons : recency recentCap (peer :: run) =
      peer :: ((recency recentCap run).filter (· ≠ peer)).take 7 := recency_cons
  rw [foldl_pushEntry, filter_map_text, ← map_take, hcons]
  rfl

/-- The connection in the file after a save. -/
theorem load_saves (saves : List Save) (last : Save) :
    load toml ((saves ++ [last]).foldl (save toml) none) =
      some (last.conn ((recency recentCap (lastRun last.carrier (last :: saves.reverse))).map
        ScopedAddr.text)) := by
  induction saves using reverseRecOn generalizing last with
  | nil =>
    rw [lastRun_cons]
    exact (toml.decode_encode _).trans (congrArg (some <| last.conn ·) (recent_eq last.peer []))
  | append_singleton saves prev ih =>
    rw [foldl_append, foldl_cons, foldl_nil]
    refine (toml.decode_encode _).trans (congrArg (some <| last.conn ·) ?_)
    rw [reverse_append, reverse_singleton, singleton_append, lastRun_cons, ← recent_eq, ih prev]
    by_cases hsame : prev.carrier = last.carrier
    · rw [Option.filter_some_pos (by simp [Save.conn, hsame]), hsame]
      rfl
    · have hrun : lastRun last.carrier (prev :: saves.reverse) = [] := by simp [lastRun, hsame]
      rw [Option.filter_some_neg (by simp [Save.conn, hsame, prev.named]), hrun]
      rfl

/-- **The file is a recency list.** After any saves, the usable peers for the last carrier are the
different peers of the last saves with it, the latest first and eight at most; for another carrier
there are none. -/
theorem usable_peers_recent (toml : Toml) (saves : List Save) (last : Save) :
    ∃ conn, load toml ((saves ++ [last]).foldl (save toml) none) = some conn ∧
      usablePeers conn last.carrier =
        recency recentCap (lastRun last.carrier (last :: saves.reverse)) ∧
      ∀ carrier, carrier ≠ last.carrier → usablePeers conn carrier = [] := by
  refine ⟨_, load_saves saves last, ?_, fun carrier hne => if_pos ⟨last.named, hne.symm⟩⟩
  have hparse : ∀ l : List ScopedAddr, (l.map ScopedAddr.text).filterMap parseScoped = l := by
    intro l
    rw [filterMap_map, show parseScoped ∘ ScopedAddr.text = some from funext parseScoped_text,
      filterMap_some]
  rw [usablePeers, if_neg fun h => h.2 rfl, lastRun_cons]
  have hhead : ∃ rest, recency recentCap (last.peer :: lastRun last.carrier saves.reverse) =
      last.peer :: rest := ⟨_, recency_cons⟩
  have hnodup : (recency recentCap (last.peer :: lastRun last.carrier saves.reverse)).Nodup :=
    nodup_recency
  obtain ⟨rest, hrest⟩ := hhead
  rw [hrest] at hnodup ⊢
  -- the peer is the first of the entries once more
  have hall := hparse (last.peer :: last.peer :: rest)
  rw [map_cons] at hall
  rw [Save.conn, hall, keepNew_cons_new not_mem_nil, keepNew_cons_seen (by simp)]
  rw [nodup_cons] at hnodup
  refine congrArg (last.peer :: ·) (keepNew_of_nodup hnodup.2 fun b hb hmem => ?_)
  exact hnodup.1 ((show b = last.peer from mem_singleton.mp hmem) ▸ hb)

/-! ### Basic strings -/

def escape (c : Char) : Text := if c = '"' ∨ c = '\\' then ['\\', c] else [c]

/-- A basic string of the format: quotes and backslashes are escaped. -/
def basic (t : Text) : Text := '"' :: t.flatMap escape ++ ['"']

/-- An array, on one line if it has one entry. -/
def array : List Text → Text
  | [entry] => ['['] ++ basic entry ++ [']']
  | entries =>
    "[\n".toList ++ entries.flatMap (fun e => "    ".toList ++ basic e ++ ",\n".toList) ++ [']']

/-- Where a reader is: the strings it has read, the one it is in, and whether an escape is open. -/
structure Reader where
  read : List Text
  inside : Option Text
  escaped : Bool

def Reader.step (r : Reader) (c : Char) : Reader :=
  match r.inside with
  | none => if c = '"' then { r with inside := some [] } else r
  | some t =>
    if r.escaped then { r with inside := some (t ++ [c]), escaped := false }
    else if c = '\\' then { r with escaped := true }
    else if c = '"' then { r with read := r.read ++ [t], inside := none }
    else { r with inside := some (t ++ [c]) }

/-- The basic strings of a text, in their order. -/
def strings (t : Text) : List Text := (t.foldl Reader.step ⟨[], none, false⟩).read

/-- Outside of a string the reader takes these strings from the text, and is outside again. -/
def Holds (t : Text) (l : List Text) : Prop :=
  ∀ read, t.foldl Reader.step ⟨read, none, false⟩ = ⟨read ++ l, none, false⟩

theorem Holds.append {t t' : Text} {l l' : List Text} (h : Holds t l) (h' : Holds t' l') :
    Holds (t ++ t') (l ++ l') := by
  intro read
  rw [foldl_append, h, h', append_assoc]

theorem holds_plain {t : Text} (h : '"' ∉ t) : Holds t [] := by
  intro read
  rw [append_nil]
  induction t with
  | nil => rfl
  | cons c t ih =>
    rw [mem_cons, not_or] at h
    rw [foldl_cons, Reader.step, if_neg fun hc => h.1 hc.symm, ih h.2]

theorem foldl_inside (t seen : Text) (read : List Text) :
    (t.flatMap escape).foldl Reader.step ⟨read, some seen, false⟩ =
      ⟨read, some (seen ++ t), false⟩ := by
  induction t generalizing seen with
  | nil => simp
  | cons c t ih =>
    have hone : (escape c).foldl Reader.step ⟨read, some seen, false⟩ =
        ⟨read, some (seen ++ [c]), false⟩ := by
      unfold escape
      split_ifs with hc
      · simp [Reader.step]
      · rw [not_or] at hc
        simp [Reader.step, hc]
    rw [flatMap_cons, foldl_append, hone, ih, append_assoc, singleton_append]

theorem holds_basic (t : Text) : Holds (basic t) [t] := by
  intro read
  have hopen : Reader.step ⟨read, none, false⟩ '"' = ⟨read, some [], false⟩ := rfl
  rw [basic, cons_append, foldl_cons, foldl_append, hopen, foldl_inside]
  rfl

theorem holds_array (entries : List Text) : Holds (array entries) entries := by
  have hlines (l : List Text) :
      Holds (l.flatMap fun e => "    ".toList ++ basic e ++ ",\n".toList) l := by
    induction l with
    | nil => exact holds_plain not_mem_nil
    | cons e l ih =>
      exact (((holds_plain (by decide)).append (holds_basic e)).append
        (holds_plain (by decide))).append ih
  have hends {t : Text} {l : List Text} (ht : Holds t l) {start : Text} (hstart : '"' ∉ start) :
      Holds (start ++ t ++ [']']) l := by
    have hall := ((holds_plain hstart).append ht).append (holds_plain (t := [']']) (by decide))
    rwa [nil_append, append_nil] at hall
  unfold array
  split
  · exact hends (holds_basic _) (by decide)
  · exact hends (hlines entries) (by decide)

/-- The text of a connection as `to_string_pretty` writes it, up to control characters. -/
def pretty (conn : LastConnection) : Text :=
  ("peer = ".toList ++ basic conn.peer) ++ ("\nprofile = ".toList ++ basic conn.profile) ++
    ("\ncarrier = ".toList ++ basic conn.carrier) ++
    ("\nrecent = ".toList ++ array conn.recent ++ ['\n'])

theorem strings_pretty (conn : LastConnection) :
    strings (pretty conn) = conn.peer :: conn.profile :: conn.carrier :: conn.recent := by
  have hkey {key : Text} (hkey : '"' ∉ key) (value : Text) : Holds (key ++ basic value) [value] :=
    (holds_plain hkey).append (holds_basic value)
  have hrecent : Holds ("\nrecent = ".toList ++ array conn.recent ++ ['\n']) (conn.recent ++ []) :=
    ((holds_plain (by decide)).append (holds_array _)).append (holds_plain (by decide))
  have hall : Holds (pretty conn) ([conn.peer] ++ [conn.profile] ++ [conn.carrier] ++
      (conn.recent ++ [])) :=
    (((hkey (by decide) _).append (hkey (by decide) _)).append (hkey (by decide) _)).append hrecent
  rw [append_nil] at hall
  exact congrArg Reader.read (hall [])

def plainToml : Toml where
  encode := pretty
  decode := fun t =>
    match strings t with
    | peer :: profile :: carrier :: recent => some ⟨peer, profile, carrier, recent⟩
    | _ => none
  decode_encode := by
    intro conn
    rw [strings_pretty]

/-- A connection that was saved. -/
def saved (last : UInt8) (carrier : Text) (named : carrier ≠ []) : Save :=
  ⟨.v4 ⟨162, 159, 192, last⟩ 443, "gfw".toList, carrier, named⟩

/-- A gateway of WireGuard, and then two of MASQUE, the first of them again at the end. -/
theorem third_save_leads :
    let wireguard := saved 9 "wireguard".toList (by decide)
    let first := saved 1 "masque-h3".toList (by decide)
    let second := saved 2 "masque-h3".toList (by decide)
    ∃ conn, load plainToml ([wireguard, first, second, first].foldl (save plainToml) none) =
        some conn ∧
      usablePeers conn "masque-h3".toList = [first.peer, second.peer] ∧
      usablePeers conn "wireguard".toList = [] := by
  intro wireguard first second
  obtain ⟨conn, hload, hsame, hother⟩ :=
    usable_peers_recent plainToml [wireguard, first, second] first
  exact ⟨conn, hload, hsame.trans (by decide), hother _ (by decide)⟩

end Koku.Lastconn
