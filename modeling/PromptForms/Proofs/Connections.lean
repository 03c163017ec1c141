/-
  PromptForms.Proofs.Connections
  ──────────────────────────────
  **WHAT THE ADDRESS OF A SERVICE SAYS ABOUT ITS PARTS.**

  The address of the message broker, and that of a database server, is written by putting
  a user, a password, a host, a port and a path around the marks `:`, `@` and `/`.  The
  parts are written as they are, so a mark in a part may be read as one of the address,
  and two different services may have one address.  The addresses for which this does not
  happen are described exactly.

      Endpoint          the parts of an address
      Plain             user, password and host hold none of the marks that end them
      HasPort           a text holds what reads as a port and the start of a path

  Main results:
    • eq_or_hasPort         a plain address is read in one way, unless there is a second port in it
    • exists_other_of_not_plain, exists_other_of_hasPort
                            other parts with the same address
    • urls_determine_parts  the settings whose addresses belong to no other service
-/
import Mathlib
import PromptForms.Settings

namespace PromptForms

/-! ## §1. Texts around marks. -/

section

variable {c d : Char} {x x' y y' m : List Char}

/-- A text that is cut at a mark in two ways is cut at the same place, or at one behind the other. -/
theorem cut_cases (h : x ++ c :: y = x' ++ c :: y') :
    (x = x' ∧ y = y') ∨ (∃ m, x' = x ++ c :: m ∧ y = m ++ c :: y') ∨
      ∃ m, x = x' ++ c :: m ∧ y' = m ++ c :: y := by
  rcases List.append_eq_append_iff.1 h with ⟨_ | ⟨a, m⟩, hfront, hback⟩ | ⟨_ | ⟨a, m⟩, hfront, hback⟩
  · rw [List.append_nil] at hfront
    exact .inl ⟨hfront.symm, (List.cons.inj hback).2⟩
  · obtain ⟨rfl, hrest⟩ := List.cons.inj hback
    exact .inr (.inl ⟨m, hfront, hrest⟩)
  · rw [List.append_nil] at hfront
    exact .inl ⟨hfront, (List.cons.inj hback).2.symm⟩
  · obtain ⟨rfl, hrest⟩ := List.cons.inj hback
    exact .inr (.inr ⟨m, hfront, hrest⟩)

/-- A mark that is not in front of another one stands behind it. -/
theorem mark_behind (hne : c ≠ d) (hx : c ∉ x) (h : x ++ d :: y = m ++ c :: y') :
    ∃ k, m = x ++ d :: k ∧ y = k ++ c :: y' := by
  rcases List.append_eq_append_iff.1 h with ⟨_ | ⟨a, k⟩, hfront, hback⟩ | ⟨_ | ⟨a, k⟩, hfront, hback⟩
  · exact absurd (List.cons.inj hback).1.symm hne
  · obtain ⟨rfl, hrest⟩ := List.cons.inj hback
    exact ⟨k, hfront, hrest⟩
  · exact absurd (List.cons.inj hback).1 hne
  · refine absurd ?_ hx
    rw [hfront, (List.cons.inj hback).1]
    simp

end

/-! ## §2. Ports. -/

/-- A port as it is written. -/
def portText (port : Int) : List Char := (toString port).toList

theorem portText_injective : Function.Injective portText := by
  intro n k h
  exact Int.repr_inj.1 (String.toList_injective h)

/-- A port is written with digits and a sign. -/
theorem mem_portText {port : Int} {c : Char} (h : c ∈ portText port) : c = '-' ∨ c.isDigit = true := by
  have digits (n : Nat) (hc : c ∈ n.repr.toList) : c.isDigit = true := by
    rw [Nat.toList_repr] at hc
    exact Nat.isDigit_of_mem_toDigits (by decide) (by decide) hc
  cases port with
  | ofNat n => exact .inr (digits n h)
  | negSucc n =>
    change c ∈ ("-" ++ (n + 1).repr).toList at h
    rw [String.toList_append, List.mem_append] at h
    rcases h with h | h
    · exact .inl (by simpa using h)
    · exact .inr (digits (n + 1) h)

theorem colon_not_mem_portText (port : Int) : ':' ∉ portText port :=
  fun h => absurd (mem_portText h) (by decide)

theorem at_not_mem_portText (port : Int) : '@' ∉ portText port :=
  fun h => absurd (mem_portText h) (by decide)

theorem slash_not_mem_portText (port : Int) : '/' ∉ portText port :=
  fun h => absurd (mem_portText h) (by decide)

/-- The text holds a colon, a port and a slash in a row. -/
def HasPort (text : String) : Prop :=
  ∃ (front : String) (port : Int) (back : String), text = front ++ ":" ++ toString port ++ "/" ++ back

theorem hasPort_iff {text : String} :
    HasPort text ↔ ∃ front port back, text.toList = front ++ ':' :: (portText port ++ '/' :: back) := by
  constructor
  · rintro ⟨front, port, back, rfl⟩
    exact ⟨front.toList, port, back.toList, by simp [portText]⟩
  · rintro ⟨front, port, back, h⟩
    refine ⟨String.ofList front, port, String.ofList back, ?_⟩
    apply String.toList_injective
    rw [h]
    simp [portText]

theorem not_hasPort_of_colon {text : String} (h : ':' ∉ text.toList) : ¬HasPort text := by
  rintro ⟨front, port, back, rfl⟩
  simp at h

theorem not_hasPort_empty : ¬HasPort "" := not_hasPort_of_colon (by decide)

/-- Two readings of a host, a port and a path are the same, unless one of them finds a second port in the
path or in the host of the other. -/
theorem place_cut {x x' : List Char} {n n' : Int} {path path' : String}
    (h : x ++ ':' :: (portText n ++ '/' :: path.toList)
      = x' ++ ':' :: (portText n' ++ '/' :: path'.toList)) :
    (x = x' ∧ n = n' ∧ path = path') ∨ HasPort path ∨
      ((∃ front port back, x = front ++ ':' :: (portText port ++ '/' :: back)) ∧ HasPort path') := by
  rcases cut_cases h with ⟨hfront, hrest⟩ | ⟨m, -, hrest⟩ | ⟨m, hfront, hrest⟩
  · rcases cut_cases hrest with ⟨hport, hpath⟩ | ⟨m, hport, -⟩ | ⟨m, hport, -⟩
    · exact .inl ⟨hfront, portText_injective hport, String.toList_injective hpath⟩
    · exact absurd (by simp [hport]) (slash_not_mem_portText n')
    · exact absurd (by simp [hport]) (slash_not_mem_portText n)
  · -- The colon of the other port stands behind the first slash.
    obtain ⟨k, -, hpath⟩ := mark_behind (by decide) (colon_not_mem_portText n) hrest
    exact .inr (.inl (hasPort_iff.2 ⟨k, n', path'.toList, hpath⟩))
  · obtain ⟨k, hm, hpath⟩ := mark_behind (by decide) (colon_not_mem_portText n') hrest
    refine .inr (.inr ⟨⟨x', n', k, ?_⟩, hasPort_iff.2 ⟨k, n, path.toList, hpath⟩⟩)
    rw [hfront, hm]

/-! ## §3. Addresses. -/

/-- The parts of an address. -/
structure Endpoint where
  user : String
  password : String
  host : String
  port : Int
  path : String

namespace Endpoint

/-- The address behind the name of the protocol. -/
def text (e : Endpoint) : String := s!"{e.user}:{e.password}@{e.host}:{e.port}/{e.path}"

/-- No part in front of the port holds a mark that ends it, and the password holds none that ends the
user. -/
structure Plain (e : Endpoint) : Prop where
  user : ':' ∉ e.user.toList
  passwordColon : ':' ∉ e.password.toList
  passwordAt : '@' ∉ e.password.toList
  host : '@' ∉ e.host.toList

variable {e e' : Endpoint}

theorem toList_text (e : Endpoint) :
    e.text.toList = e.user.toList ++ ':' :: (e.password.toList ++ '@' ::
      (e.host.toList ++ ':' :: (portText e.port ++ '/' :: e.path.toList))) := by
  show (e.user ++ ":" ++ e.password ++ "@" ++ e.host ++ ":" ++ toString e.port ++ "/" ++ e.path).toList = _
  simp [portText]

/-- A user and a password without colons, the password also without `@`, are read in one way, unless
there is an `@` behind them that is read as theirs. -/
theorem account_cut {u u' p p' r r' : List Char} (hu : ':' ∉ u) (hcolon : ':' ∉ p) (hat : '@' ∉ p)
    (h : u ++ ':' :: (p ++ '@' :: r) = u' ++ ':' :: (p' ++ '@' :: r')) :
    (u = u' ∧ p = p' ∧ r = r') ∨ ∃ m, r = m ++ '@' :: r' := by
  have grouped : (u ++ ':' :: p) ++ '@' :: r = (u' ++ ':' :: p') ++ '@' :: r' := by
    simpa using h
  -- Whatever follows in the other reading, its user ends where this one does.
  have inner {back : List Char} (h : u ++ ':' :: p = u' ++ ':' :: back) : u = u' ∧ p = back := by
    rcases cut_cases h with same | ⟨m, -, rfl⟩ | ⟨m, rfl, -⟩
    · exact same
    · simp at hcolon
    · simp at hu
  rcases cut_cases grouped with ⟨hfront, hrest⟩ | ⟨m, -, hrest⟩ | ⟨m, hfront, -⟩
  · obtain ⟨huser, hpassword⟩ := inner hfront
    exact .inl ⟨huser, hpassword, hrest⟩
  · exact .inr ⟨m, hrest⟩
  · have regrouped : u ++ ':' :: p = u' ++ ':' :: (p' ++ '@' :: m) := by
      simpa using hfront
    rw [(inner regrouped).2] at hat
    simp at hat

/-- A plain address has no other parts, unless its path holds a second port, or its host does and the other
path too. -/
theorem eq_or_hasPort (he : e.Plain) (h : e.text = e'.text) :
    e = e' ∨ HasPort e.path ∨ (HasPort e.host ∧ HasPort e'.path) := by
  have spelled := congrArg String.toList h
  rw [toList_text, toList_text] at spelled
  rcases account_cut he.user he.passwordColon he.passwordAt spelled with ⟨huser, hpassword, hplace⟩ | ⟨m, hm⟩
  · rcases place_cut hplace with ⟨hhost, hport, hpath⟩ | hpath | ⟨hhost, hpath⟩
    · left
      cases e
      cases e'
      simp_all [String.toList_inj]
    · exact .inr (.inl hpath)
    · exact .inr (.inr ⟨hasPort_iff.2 hhost, hpath⟩)
  · -- The mark is behind the slash, so the other port is in the path.
    obtain ⟨k, -, hm⟩ := mark_behind (by decide) he.host hm
    obtain ⟨k, -, hm⟩ := mark_behind (by decide) (at_not_mem_portText e.port) hm
    refine .inr (.inl (hasPort_iff.2 ⟨k ++ '@' :: e'.host.toList, e'.port, e'.path.toList, ?_⟩))
    rw [hm]
    simp

/-- A text is longer than what stands in front of a mark in it, and than what stands behind. -/
theorem ne_of_split {c : Char} {front t back : String} (h : t.toList = front.toList ++ c :: back.toList) :
    front ≠ t ∧ back ≠ t := by
  have hlength : t.toList.length = front.toList.length + (back.toList.length + 1) := by
    rw [h, List.length_append, List.length_cons]
  constructor <;>
  · rintro rfl
    omega

/-- A mark in a text, with what stands around it. -/
theorem exists_split {c : Char} {t : String} (h : c ∈ t.toList) :
    ∃ front back : String, t.toList = front.toList ++ c :: back.toList := by
  obtain ⟨front, back, hsplit⟩ := List.append_of_mem h
  exact ⟨String.ofList front, String.ofList back, by simpa using hsplit⟩

/-- An address that is not plain is also that of another endpoint with the same port and path. -/
theorem exists_other_of_not_plain (h : ¬e.Plain) :
    ∃ e' : Endpoint, e'.text = e.text ∧ e'.path = e.path ∧ e' ≠ e := by
  obtain ⟨user, password, host, port, path⟩ := e
  have marked : ':' ∈ user.toList ∨ ':' ∈ password.toList ∨ '@' ∈ password.toList ∨
      '@' ∈ host.toList := by
    by_contra hnone
    simp only [not_or] at hnone
    exact h ⟨hnone.1, hnone.2.1, hnone.2.2.1, hnone.2.2.2⟩
  -- The part with the mark is cut there, and its other half goes to the part beside it.
  rcases marked with h | h | h | h <;> obtain ⟨front, back, hsplit⟩ := exists_split h
  · refine ⟨⟨front, back ++ ":" ++ password, host, port, path⟩, ?_, rfl, ?_⟩
    · apply String.toList_injective
      simp [toList_text, hsplit]
    · exact fun he => (ne_of_split hsplit).1 (congrArg Endpoint.user he)
  · refine ⟨⟨user ++ ":" ++ front, back, host, port, path⟩, ?_, rfl, ?_⟩
    · apply String.toList_injective
      simp [toList_text, hsplit]
    · exact fun he => (ne_of_split hsplit).2 (congrArg Endpoint.password he)
  · refine ⟨⟨user, front, back ++ "@" ++ host, port, path⟩, ?_, rfl, ?_⟩
    · apply String.toList_injective
      simp [toList_text, hsplit]
    · exact fun he => (ne_of_split hsplit).1 (congrArg Endpoint.password he)
  · refine ⟨⟨user, password ++ "@" ++ front, back, port, path⟩, ?_, rfl, ?_⟩
    · apply String.toList_injective
      simp [toList_text, hsplit]
    · exact fun he => (ne_of_split hsplit).2 (congrArg Endpoint.host he)

/-- An address with a second port is also that of an endpoint that has this port. -/
theorem exists_other_of_hasPort (h : HasPort e.host ∨ HasPort e.path) :
    ∃ e' : Endpoint, e'.text = e.text ∧ e' ≠ e := by
  obtain ⟨user, password, host, port, path⟩ := e
  rcases h with ⟨front, second, back, hsplit⟩ | ⟨front, second, back, hsplit⟩
  · -- What stands behind the second port becomes the front of the path.
    obtain rfl : host = front ++ ":" ++ toString second ++ "/" ++ back := hsplit
    refine ⟨⟨user, password, front, second, back ++ ":" ++ toString port ++ "/" ++ path⟩, ?_, ?_⟩
    · apply String.toList_injective
      simp [toList_text, portText]
    · have hmark : (front ++ ":" ++ toString second ++ "/" ++ back).toList
          = front.toList ++ ':' :: (toString second ++ "/" ++ back).toList := by simp
      exact fun he => (ne_of_split hmark).1 (congrArg Endpoint.host he)
  · -- What stands in front of it becomes the end of the host.
    obtain rfl : path = front ++ ":" ++ toString second ++ "/" ++ back := hsplit
    refine ⟨⟨user, password, host ++ ":" ++ toString port ++ "/" ++ front, second, back⟩, ?_, ?_⟩
    · apply String.toList_injective
      simp [toList_text, portText]
    · have hmark : (front ++ ":" ++ toString second ++ "/" ++ back).toList
          = (front ++ ":" ++ toString second).toList ++ '/' :: back.toList := by simp
      exact fun he => (ne_of_split hmark).2 (congrArg Endpoint.path he)

end Endpoint

/-! ## §4. The addresses of the settings. -/

theorem DatabaseDriver.name_injective : Function.Injective DatabaseDriver.name := by
  intro d d' h
  cases d <;> cases d' <;> first | rfl | exact absurd h (by decide)

namespace Settings

/-- The message broker of the settings. -/
def broker (s : Settings) : Endpoint :=
  ⟨s.rabbitLogin, s.rabbitPassword, s.rabbitHost, s.rabbitPort, ""⟩

/-- The database server of the settings; its path is the name of the database. -/
def database (s : Settings) : Endpoint :=
  ⟨s.databaseUser, s.databasePassword, s.databaseHost, s.databasePort, s.databaseName⟩

/-- The settings with another broker. -/
def withBroker (s : Settings) (e : Endpoint) : Settings :=
  { s with
    rabbitLogin := e.user, rabbitPassword := e.password, rabbitHost := e.host, rabbitPort := e.port }

/-- The settings with another database server. -/
def withDatabase (s : Settings) (e : Endpoint) : Settings :=
  { s with
    databaseUser := e.user, databasePassword := e.password, databaseHost := e.host,
    databasePort := e.port, databaseName := e.path }

theorem broker_withBroker {s : Settings} {e : Endpoint} (h : e.path = "") :
    (s.withBroker e).broker = e := by
  rw [broker, ← h]
  rfl

theorem toList_amqpUrl (s : Settings) : s.amqpUrl.toList = "amqp://".toList ++ s.broker.text.toList := by
  rw [Endpoint.toList_text]
  show ("amqp://" ++ s.rabbitLogin ++ ":" ++ s.rabbitPassword ++ "@" ++ s.rabbitHost ++ ":" ++
    toString s.rabbitPort ++ "/").toList = _
  simp [broker, portText]

theorem toList_databaseUrl {s : Settings} (h : s.databaseDriver ≠ .sqlite) :
    s.databaseUrl.toList = s.databaseDriver.name.toList ++ ("://".toList ++ s.database.text.toList) := by
  have written : s.databaseUrl = s.databaseDriver.name ++ "://" ++ s.databaseUser ++ ":" ++
      s.databasePassword ++ "@" ++ (s.databaseHost ++ ":" ++ toString s.databasePort ++ "/" ++
      s.databaseName) := by
    unfold databaseUrl
    split
    · exact absurd ‹_› h
    · rfl
  rw [Endpoint.toList_text, written]
  simp [database, portText]

/-- Every address of a database starts with the name of its driver, whatever the driver is. -/
theorem exists_toList_databaseUrl (s : Settings) :
    ∃ rest, s.databaseUrl.toList = s.databaseDriver.name.toList ++ ':' :: rest := by
  cases hs : s.databaseDriver with
  | sqlite =>
    refine ⟨("///" ++ s.databaseName ++ ".db").toList, ?_⟩
    have written : s.databaseUrl = "sqlite:///" ++ s.databaseName ++ ".db" := by
      unfold databaseUrl
      rw [hs]
      rfl
    rw [written]
    simp [DatabaseDriver.name]
  | postgres | postgresAsync =>
    have server := toList_databaseUrl (s := s) (by rw [hs]; decide)
    rw [hs] at server
    exact ⟨"//".toList ++ s.database.text.toList, server⟩

/-- The address of a database server tells its driver. -/
theorem databaseUrl_eq_iff {s t : Settings} (hs : s.databaseDriver ≠ .sqlite) :
    t.databaseUrl = s.databaseUrl ↔
      t.databaseDriver = s.databaseDriver ∧ t.database.text = s.database.text := by
  constructor
  · intro h
    obtain ⟨rest, hrest⟩ := exists_toList_databaseUrl s
    obtain ⟨rest', hrest'⟩ := exists_toList_databaseUrl t
    -- No driver has a colon in its name.
    have colonless (d : DatabaseDriver) : ':' ∉ d.name.toList := by
      cases d <;> decide
    have hname : t.databaseDriver.name.toList = s.databaseDriver.name.toList := by
      rcases cut_cases (hrest'.symm.trans ((congrArg String.toList h).trans hrest)) with
        ⟨hname, -⟩ | ⟨m, hname, -⟩ | ⟨m, hname, -⟩
      · exact hname
      · exact absurd (by simp [hname]) (colonless s.databaseDriver)
      · exact absurd (by simp [hname]) (colonless t.databaseDriver)
    refine ⟨DatabaseDriver.name_injective (String.toList_injective hname), ?_⟩
    have spelled := congrArg String.toList h
    have ht : t.databaseDriver ≠ .sqlite := by
      rwa [DatabaseDriver.name_injective (String.toList_injective hname)]
    rw [toList_databaseUrl hs, toList_databaseUrl ht, hname] at spelled
    exact String.toList_injective (List.append_cancel_left (List.append_cancel_left spelled))
  · rintro ⟨hdriver, htext⟩
    apply String.toList_injective
    rw [toList_databaseUrl hs, toList_databaseUrl (hdriver ▸ hs), hdriver, htext]

/-- The address of a broker tells its port, and what stands in front of the port as one text. -/
theorem amqpUrl_eq_iff {s t : Settings} :
    t.amqpUrl = s.amqpUrl ↔ t.rabbitPort = s.rabbitPort ∧
      t.rabbitLogin ++ ":" ++ t.rabbitPassword ++ "@" ++ t.rabbitHost =
        s.rabbitLogin ++ ":" ++ s.rabbitPassword ++ "@" ++ s.rabbitHost := by
  have written (s : Settings) : s.amqpUrl.toList = "amqp://".toList ++
      ((s.rabbitLogin ++ ":" ++ s.rabbitPassword ++ "@" ++ s.rabbitHost).toList ++
        ':' :: (portText s.rabbitPort ++ '/' :: "".toList)) := by
    rw [toList_amqpUrl, Endpoint.toList_text]
    simp [broker]
  constructor
  · intro h
    have spelled := congrArg String.toList h
    rw [written, written, List.append_cancel_left_eq] at spelled
    rcases place_cut spelled with ⟨hfront, hport, -⟩ | hpath | ⟨-, hpath⟩
    · exact ⟨hport, String.toList_injective hfront⟩
    · exact absurd hpath not_hasPort_empty
    · exact absurd hpath not_hasPort_empty
  · rintro ⟨hport, hfront⟩
    apply String.toList_injective
    rw [written, written, hport, hfront]

/-- The broker that an address belongs to is determined exactly if it is plain. -/
theorem broker_determined_iff (s : Settings) :
    (∀ t : Settings, t.amqpUrl = s.amqpUrl → t.broker = s.broker) ↔ s.broker.Plain := by
  have sameText {t : Settings} : t.amqpUrl = s.amqpUrl ↔ t.broker.text = s.broker.text := by
    rw [← String.toList_inj, toList_amqpUrl, toList_amqpUrl, List.append_cancel_left_eq, String.toList_inj]
  constructor
  · intro h
    by_contra hnot
    obtain ⟨e, htext, hpath, hne⟩ := Endpoint.exists_other_of_not_plain hnot
    have hother : (s.withBroker e).broker = e := broker_withBroker hpath
    have same := h (s.withBroker e) (sameText.2 (by rw [hother, htext]))
    exact hne (hother.symm.trans same)
  · intro hplain t h
    rcases Endpoint.eq_or_hasPort hplain (sameText.1 h).symm with he | hpath | ⟨-, hpath⟩
    · exact he.symm
    · exact absurd hpath not_hasPort_empty
    · exact absurd hpath not_hasPort_empty

/-- The server that an address belongs to is determined exactly if it is plain, and there is no second port
in its host or in the name of the database. -/
theorem database_determined_iff {s : Settings} (hs : s.databaseDriver ≠ .sqlite) :
    (∀ t : Settings, t.databaseUrl = s.databaseUrl → t.database = s.database) ↔
      s.database.Plain ∧ ¬HasPort s.databaseHost ∧ ¬HasPort s.databaseName := by
  have sole (h : ∀ t : Settings, t.databaseUrl = s.databaseUrl → t.database = s.database)
      (e : Endpoint) (htext : e.text = s.database.text) : e = s.database :=
    h (s.withDatabase e) ((databaseUrl_eq_iff hs).2 ⟨rfl, htext⟩)
  constructor
  · intro h
    refine ⟨?_, ?_, ?_⟩
    · by_contra hnot
      obtain ⟨e, htext, -, hne⟩ := Endpoint.exists_other_of_not_plain hnot
      exact hne (sole h e htext)
    · intro hport
      obtain ⟨e, htext, hne⟩ := Endpoint.exists_other_of_hasPort (e := s.database) (.inl hport)
      exact hne (sole h e htext)
    · intro hport
      obtain ⟨e, htext, hne⟩ := Endpoint.exists_other_of_hasPort (e := s.database) (.inr hport)
      exact hne (sole h e htext)
  · rintro ⟨hplain, hhost, hname⟩ t h
    obtain ⟨-, htext⟩ := (databaseUrl_eq_iff hs).1 h
    rcases Endpoint.eq_or_hasPort hplain htext.symm with he | hpath | ⟨hport, -⟩
    · exact he.symm
    · exact absurd hpath hname
    · exact absurd hport hhost

/-- **Which connection addresses determine their parts.**  The parts of the broker are its login,
password, host and port; those of the database server are its user, password, host, port and the name of
the database.

  1. Two settings have one broker address exactly if they have one port, and one text of login, password and
     host with the marks between them.
  2. A broker address belongs to one broker only, whatever other settings there are, exactly if there is no
     colon in the login and in the password, and no `@` in the password and in the host.
  3. The same holds of the address of a database server, for each driver of a server, if moreover neither
     the host nor the name of the database holds a colon, a port and a slash in a row.  Such an address
     always tells the driver. -/
theorem urls_determine_parts (s : Settings) :
    (∀ t : Settings, t.amqpUrl = s.amqpUrl ↔ t.rabbitPort = s.rabbitPort ∧
      t.rabbitLogin ++ ":" ++ t.rabbitPassword ++ "@" ++ t.rabbitHost =
        s.rabbitLogin ++ ":" ++ s.rabbitPassword ++ "@" ++ s.rabbitHost) ∧
    ((∀ t : Settings, t.amqpUrl = s.amqpUrl → t.broker = s.broker) ↔ s.broker.Plain) ∧
    (s.databaseDriver ≠ .sqlite →
      (∀ t : Settings, t.databaseUrl = s.databaseUrl ↔
        t.databaseDriver = s.databaseDriver ∧ t.database.text = s.database.text) ∧
      ((∀ t : Settings, t.databaseUrl = s.databaseUrl → t.database = s.database) ↔
        s.database.Plain ∧ ¬HasPort s.databaseHost ∧ ¬HasPort s.databaseName)) :=
  ⟨fun _ => amqpUrl_eq_iff, broker_determined_iff s,
    fun hs => ⟨fun _ => databaseUrl_eq_iff hs, database_determined_iff hs⟩⟩

/-- Direct values for the account of the broker and of a database server. -/
def accountValues (user password : String) : Members :=
  [("rabbitmq_login", .str user), ("rabbitmq_password", .str password),
    ("database_driver", .str "postgresql+asyncpg"), ("database_username", .str user),
    ("database_password", .str password)]

/-- With an ordinary account on the default hosts, both addresses determine their parts. -/
theorem urls_determine_parts_ann : ∃ s, load (accountValues "ann" "secret") [] = .good s ∧
    (∀ t : Settings, t.amqpUrl = s.amqpUrl → t.broker = s.broker) ∧
    ∀ t : Settings, t.databaseUrl = s.databaseUrl → t.database = s.database := by
  refine ⟨_, rfl, ?_⟩
  obtain ⟨-, hbroker, hdatabase⟩ := urls_determine_parts
    ((load (accountValues "ann" "secret") []).value?.get rfl)
  have driven := hdatabase (by decide)
  refine ⟨hbroker.2 ⟨by decide, by decide, by decide, by decide⟩, driven.2.2 ⟨?_, ?_, ?_⟩⟩
  · exact ⟨by decide, by decide, by decide, by decide⟩
  · exact not_hasPort_of_colon (by decide)
  · exact not_hasPort_of_colon (by decide)

/-- A colon in the login and one in the password make one address of two accounts. -/
theorem shared_addresses : ∃ s t, load (accountValues "a:b" "c") [] = .good s ∧
    load (accountValues "a" "b:c") [] = .good t ∧
    s.amqpUrl = t.amqpUrl ∧ s.rabbitLogin ≠ t.rabbitLogin ∧
    s.databaseDriver = .postgresAsync ∧ t.databaseDriver = .postgresAsync ∧
    s.databaseUrl = t.databaseUrl ∧ s.databaseUser ≠ t.databaseUser :=
  ⟨_, _, rfl, rfl, by decide, by decide, rfl, rfl, by decide, by decide⟩

end Settings

end PromptForms
