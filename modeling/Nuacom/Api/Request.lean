import Nuacom.Api.Client
import Nuacom.Support.Url

set_option relaxedAutoImplicit false
set_option autoImplicit false

/-!
# What a server reads from the requests of the API client

`GetSessionToken` puts the user name into the query of its URL as it is, and `EndCall` puts the
channel id into the path of its URL as it is. A server that splits and decodes the URL reads
the arguments back only when they have none of the bytes that mean something at their place.

## Main definitions

* `Nuacom.LoginReads`, `Nuacom.TerminateReads` — a server reads from the URL exactly the
  arguments of the call.
* `Nuacom.NameSafe`, `Nuacom.ChannelSafe` — the arguments without a byte that is special at
  their place.

## Main results

* `Nuacom.loginReads_iff`, `Nuacom.terminateReads_iff` — these are exactly the arguments that
  are read back.
* `Nuacom.requests_read_back_iff` — the same for both requests, and that safe arguments that
  differ give requests that are read differently.
-/

namespace Nuacom

open CString

/-- A server reads the user name and the digest of the password from the URL of
`GetSessionToken`, and nothing else. -/
def LoginReads (name pass : Bytes) : Prop :=
  (Url.parse (getSessionTokenRequest name pass).url).parameters =
    [(bytes "email", name), (bytes "pass", md5 pass)]

/-- A server reads the channel id from the URL of `EndCall`: the query is empty, there is no
fragment, and the segments of the path are the fixed ones and the channel id. -/
def TerminateReads (sessionToken channelId : Bytes) : Prop :=
  let u := Url.parse (endCallRequest sessionToken channelId).url
  u.query.getD [] = [] ∧ u.fragment = none ∧
    u.segments = [bytes "call", bytes "terminate", bytes "SIP", channelId]

/-- The user name has no byte that is special in the value of a query parameter. -/
def NameSafe (name : Bytes) : Prop :=
  (Url.hash ∉ name ∧ Url.ampersand ∉ name) ∧ Url.plus ∉ name ∧ Url.hasEscape name = false

/-- The channel id has no byte that is special in a segment of a path. -/
def ChannelSafe (channelId : Bytes) : Prop :=
  (Url.hash ∉ channelId ∧ Url.question ∉ channelId) ∧ Url.slash ∉ channelId ∧
    Url.hasEscape channelId = false

instance (name : Bytes) : Decidable (NameSafe name) := inferInstanceAs (Decidable (_ ∧ _))

instance (channelId : Bytes) : Decidable (ChannelSafe channelId) :=
  inferInstanceAs (Decidable (_ ∧ _))

/-! ## The URL of `GetSessionToken` -/

section Login

variable (name pass : Bytes)

/-- What follows the name in the URL. -/
private def passPart : Bytes := bytes "pass=" ++ md5 pass

/-- The URL of a login, with its parts in a row. -/
private theorem getSessionTokenUrl_eq (hpass : NulFree pass) :
    getSessionTokenUrl name pass =
      bytes "https://api.nuacom.ie/login" ++ Url.question ::
        (bytes "email=" ++ (name ++ Url.ampersand :: passPart pass)) := by
  have hbase : loginBaseUrl = bytes "https://api.nuacom.ie/login" ++ [Url.question] := by decide
  have hamp : bytes "&pass=" = Url.ampersand :: bytes "pass=" := by decide
  unfold getSessionTokenUrl passPart
  rw [hbase, hamp, cStr_of_nulFree hpass]
  simp only [List.append_assoc, List.cons_append, List.nil_append]

/-- The URL has no zero byte, so libcurl gets all of it. -/
private theorem getSessionTokenRequest_url (hname : NulFree name) :
    (getSessionTokenRequest name pass).url = getSessionTokenUrl name pass := by
  have hmd5 : NulFree (md5 (cStr pass)) := not_mem_md5 _ (by decide)
  apply cStr_of_nulFree
  refine NulFree.append (by decide) (NulFree.append (NulFree.append ?_ (by decide)) hmd5)
  exact NulFree.append (by decide) hname

/-- What is left of the query when the fragment is split off. -/
private def loginQuery : Bytes := bytes "email=" ++ (Url.cut Url.hash
  (name ++ Url.ampersand :: passPart pass)).1

/-- The query begins after the base of the URL, and ends at a number sign.

**Proof sketch.** Neither the base of the URL nor `email=` has a number sign, so the first one is
that of the rest; and the base has no other question mark than its last byte. -/
private theorem query_login (hpass : NulFree pass) :
    (Url.parse (getSessionTokenUrl name pass)).query = some (loginQuery name pass) := by
  have hfix : Url.hash ∉ bytes "https://api.nuacom.ie/login" ++ Url.question ::
      bytes "email=" := by decide
  have hq : Url.question ∉ bytes "https://api.nuacom.ie/login" := by decide
  have hassoc : bytes "https://api.nuacom.ie/login" ++ Url.question ::
      (bytes "email=" ++ (name ++ Url.ampersand :: passPart pass)) =
      (bytes "https://api.nuacom.ie/login" ++ Url.question :: bytes "email=") ++
        (name ++ Url.ampersand :: passPart pass) := by
    rw [List.append_assoc, List.cons_append]
  rw [getSessionTokenUrl_eq name pass hpass, hassoc]
  simp only [Url.parse]
  rw [Url.cut_append_of_not_mem hfix]
  simp only [List.append_assoc, List.cons_append]
  rw [Url.cut_append_of_not_mem hq, Url.cut_cons_self]
  rfl

/-- The pair that starts with `email=` is the parameter `email` with the rest decoded. -/
private theorem parameter_email (value : Bytes) :
    Url.parameter (bytes "email=" ++ value) = (bytes "email", Url.formDecode value) := by
  have heq : bytes "email=" ++ value = bytes "email" ++ Url.equals :: value := by rfl
  have hemail : Url.formDecode (bytes "email") = bytes "email" := by decide
  rw [heq, Url.parameter_append (by decide), hemail]

/-- The first parameter that a server reads is `email`, with the decoded part of the name that
stands before its first `&` or `#`.

**Proof sketch.** The first piece between ampersands is `email=` with the front of the name, and it
is not empty, so the filter keeps it. -/
private theorem parameters_login (hpass : NulFree pass) :
    ∃ rest, (Url.parse (getSessionTokenUrl name pass)).parameters =
      (bytes "email", Url.formDecode
        (name.takeWhile fun a => a != Url.ampersand && a != Url.hash)) :: rest := by
  set front := name.takeWhile fun a => a != Url.ampersand && a != Url.hash with hfront
  have hfix : Url.ampersand ∉ bytes "email=" := by decide
  obtain ⟨pieces, hpieces⟩ := Url.splitOn_eq_cons Url.ampersand (loginQuery name pass)
  have hfirst : (Url.cut Url.ampersand (loginQuery name pass)).1 = bytes "email=" ++ front := by
    unfold loginQuery
    rw [Url.cut_append_of_not_mem hfix, Url.cut_cut_append]
  have hfilter : ((bytes "email=" ++ front) :: pieces).filter (· ≠ []) =
      (bytes "email=" ++ front) :: pieces.filter (· ≠ []) :=
    List.filter_cons_of_pos (by simp [bytes])
  refine ⟨(pieces.filter (· ≠ [])).map Url.parameter, ?_⟩
  unfold Url.Parsed.parameters
  rw [query_login name pass hpass, Option.getD_some, hpieces, hfirst, hfilter,
    List.map_cons, parameter_email]

/-- What a server reads when the name has neither `&` nor `#`.

**Proof sketch.** Then there is no fragment, and two pieces between ampersands. The digest is
hexadecimal, so decoding leaves it. -/
private theorem parameters_login_of_not_mem (hpass : NulFree pass) (hh : Url.hash ∉ name)
    (ha : Url.ampersand ∉ name) :
    (Url.parse (getSessionTokenUrl name pass)).parameters =
      [(bytes "email", Url.formDecode name), (bytes "pass", md5 pass)] := by
  have hpassPart : Url.hash ∉ passPart pass ∧ Url.ampersand ∉ passPart pass := by
    simp only [passPart, List.mem_append, not_or]
    exact ⟨⟨by decide, not_mem_md5 _ (by decide)⟩, by decide, not_mem_md5 _ (by decide)⟩
  have hcut : (Url.cut Url.hash (name ++ Url.ampersand :: passPart pass)).1 =
      name ++ Url.ampersand :: passPart pass := by
    apply (Url.cut_fst_eq_self_iff _ _).mpr
    simp only [List.mem_append, List.mem_cons, not_or]
    exact ⟨hh, by decide, hpassPart.1⟩
  have hfront : Url.ampersand ∉ bytes "email=" ++ name := by
    simp only [List.mem_append, not_or]
    exact ⟨by decide, ha⟩
  have hsplit : (loginQuery name pass).splitOn Url.ampersand =
      [bytes "email=" ++ name, passPart pass] := by
    unfold loginQuery
    rw [hcut, ← List.append_assoc, List.splitOn_append_cons_self_of_not_mem hfront,
      List.splitOn_eq_singleton hpassPart.2]
  have hpassParam : Url.parameter (passPart pass) = (bytes "pass", md5 pass) := by
    have heq : passPart pass = bytes "pass" ++ Url.equals :: md5 pass := by rfl
    have hd : Url.formDecode (bytes "pass") = bytes "pass" := by decide
    have hdigest : Url.formDecode (md5 pass) = md5 pass := by
      apply (Url.formDecode_eq_self_iff _).mpr
      exact ⟨not_mem_md5 _ (by decide), Url.hasEscape_of_not_mem (not_mem_md5 _ (by decide))⟩
    rw [heq, Url.parameter_append (by decide), hd, hdigest]
  have hfilter : [bytes "email=" ++ name, passPart pass].filter (· ≠ []) =
      [bytes "email=" ++ name, passPart pass] := by
    simp [bytes, passPart]
  unfold Url.Parsed.parameters
  rw [query_login name pass hpass, Option.getD_some, hsplit, hfilter]
  simp only [List.map_cons, List.map_nil, parameter_email, hpassParam]

/-- **The request of `GetSessionToken`.** A server reads back exactly the user names without
`&`, `#`, `+` and percent escapes.

**Proof sketch.** The first value read is the decoded part of the name before its first `&` or
`#`. Neither taking that part nor decoding makes a string longer, so it is the name only when
both leave the name alone. Conversely such a name is one value, the digest the other. -/
theorem loginReads_iff (hname : NulFree name) (hpass : NulFree pass) :
    LoginReads name pass ↔ NameSafe name := by
  unfold LoginReads NameSafe
  rw [getSessionTokenRequest_url name pass hname]
  constructor
  · intro h
    obtain ⟨rest, hrest⟩ := parameters_login name pass hpass
    set front := name.takeWhile fun a => a != Url.ampersand && a != Url.hash with hfront
    rw [hrest, List.cons.injEq, Prod.mk.injEq] at h
    have hdec : Url.formDecode front = name := h.1.2
    have hprefix : front <+: name := List.takeWhile_prefix _
    have hlen : name.length ≤ front.length := by
      have := Url.length_formDecode_le front
      rwa [hdec] at this
    have hwhole : front = name := hprefix.eq_of_length_le hlen
    have hall := List.takeWhile_eq_self_iff.mp hwhole
    refine ⟨⟨fun hc => ?_, fun hc => ?_⟩, ?_⟩
    · simpa using hall _ hc
    · simpa using hall _ hc
    · rw [hwhole] at hdec
      exact (Url.formDecode_eq_self_iff name).mp hdec
  · intro h'
    obtain ⟨⟨hh, ha⟩, hdec⟩ := h'
    rw [parameters_login_of_not_mem name pass hpass hh ha,
      (Url.formDecode_eq_self_iff name).mpr hdec]

end Login

/-! ## The URL of `EndCall` -/

section Terminate

variable (sessionToken channelId : Bytes)

/-- What the fragment and the query leave of the channel id. -/
private def channelPath : Bytes := (Url.cut Url.question (Url.cut Url.hash channelId).1).1

/-- The URL of a hangup is the base with the channel behind it. -/
private theorem endCallRequest_url (h : NulFree channelId) :
    (endCallRequest sessionToken channelId).url = terminateBaseUrl ++ channelId :=
  cStr_of_nulFree (NulFree.append (by decide) h)

/-- The parts of the URL of a hangup: a number sign in the channel begins the fragment, and a
question mark before it begins the query. -/
private theorem parse_terminate :
    Url.parse (terminateBaseUrl ++ channelId) =
      ⟨terminateBaseUrl ++ channelPath channelId,
        (Url.cut Url.question (Url.cut Url.hash channelId).1).2,
        (Url.cut Url.hash channelId).2⟩ := by
  have hh : Url.hash ∉ terminateBaseUrl := by decide
  have hq : Url.question ∉ terminateBaseUrl := by decide
  simp only [Url.parse, channelPath]
  rw [Url.cut_append_of_not_mem hh, Url.cut_append_of_not_mem hq]

/-- The last segments of the path are those of the channel, up to a question mark or a number sign.

**Proof sketch.** The base is cut at its slashes, one after the other; what is behind the last one
is the path of the channel. -/
private theorem segments_terminate :
    (Url.parse (terminateBaseUrl ++ channelId)).segments =
      bytes "call" :: bytes "terminate" :: bytes "SIP" ::
        ((channelPath channelId).splitOn Url.slash).map Url.percentDecode := by
  have hbase : terminateBaseUrl = bytes "https" ++ Url.colon :: (Url.slash :: Url.slash ::
      (bytes "call-events.nuacom.ie" ++ Url.slash :: (bytes "call" ++ Url.slash ::
        (bytes "terminate" ++ Url.slash :: (bytes "SIP" ++ [Url.slash]))))) := by decide
  have hhost : ∀ a ∈ bytes "call-events.nuacom.ie", (a != Url.slash) = true := by decide +kernel
  have hpath : (Url.parse (terminateBaseUrl ++ channelId)).path =
      Url.slash :: (bytes "call" ++ Url.slash :: (bytes "terminate" ++ Url.slash ::
        (bytes "SIP" ++ Url.slash :: channelPath channelId))) := by
    rw [parse_terminate, Url.Parsed.path, hbase]
    simp only [List.append_assoc, List.cons_append, List.nil_append]
    rw [Url.cut_append_of_not_mem (by decide), Url.cut_cons_self]
    simp only [Option.getD_some, List.drop_succ_cons, List.drop_zero]
    rw [List.dropWhile_append_of_pos hhost]
    simp
  unfold Url.Parsed.segments
  rw [hpath, List.drop_succ_cons, List.drop_zero,
    List.splitOn_append_cons_self_of_not_mem (by decide),
    List.splitOn_append_cons_self_of_not_mem (by decide),
    List.splitOn_append_cons_self_of_not_mem (by decide)]
  rfl

/-- **The request of `EndCall`.** A server reads back exactly the channel ids without `#`, `?`,
`/` and percent escapes.

**Proof sketch.** The last segments are the decoded pieces of what fragment and query leave of
the channel id. None of the cuts and no decoding makes a string longer, so a single piece that
decodes to the whole channel id has lost nothing to any of them. -/
theorem terminateReads_iff (h : NulFree channelId) :
    TerminateReads sessionToken channelId ↔ ChannelSafe channelId := by
  unfold TerminateReads ChannelSafe
  simp only
  rw [endCallRequest_url sessionToken channelId h, segments_terminate, parse_terminate]
  constructor
  · intro h'
    obtain ⟨-, -, hseg⟩ := h'
    set path := channelPath channelId with hpath
    obtain ⟨pieces, hpieces⟩ := Url.splitOn_eq_cons Url.slash path
    rw [hpieces] at hseg
    simp only [List.map_cons, List.cons.injEq, true_and, List.map_eq_nil_iff] at hseg
    obtain ⟨hdec, -⟩ := hseg
    have h1 := (Url.length_percentDecode (Url.cut Url.slash path).1).1
    have h2 := Url.length_cut_fst_le Url.slash path
    have h3 := Url.length_cut_fst_le Url.question (Url.cut Url.hash channelId).1
    have h4 := Url.length_cut_fst_le Url.hash channelId
    rw [hdec] at h1
    have hpathLen : path.length = (Url.cut Url.question (Url.cut Url.hash channelId).1).1.length :=
      rfl
    have hhash : Url.hash ∉ channelId := Url.not_mem_of_length_le_cut (by omega)
    have hcutHash : (Url.cut Url.hash channelId).1 = channelId :=
      (Url.cut_fst_eq_self_iff _ _).mpr hhash
    have hquestion : Url.question ∉ channelId := by
      rw [← hcutHash]
      exact Url.not_mem_of_length_le_cut (by omega)
    have hwhole : path = channelId := by
      rw [hpath, channelPath, hcutHash]
      exact (Url.cut_fst_eq_self_iff _ _).mpr hquestion
    rw [hwhole] at h1 hdec
    have hslash : Url.slash ∉ channelId := Url.not_mem_of_length_le_cut h1
    rw [(Url.cut_fst_eq_self_iff _ _).mpr hslash] at hdec
    exact ⟨⟨hhash, hquestion⟩, hslash, (Url.percentDecode_eq_self_iff _).mp hdec⟩
  · intro h'
    obtain ⟨⟨hh, hq⟩, hs, hdec⟩ := h'
    have hwhole : channelPath channelId = channelId := by
      rw [channelPath, Url.cut_of_not_mem hh, Url.cut_of_not_mem hq]
    rw [hwhole, Url.cut_of_not_mem hh, Url.cut_of_not_mem hq, List.splitOn_eq_singleton hs]
    simp [(Url.percentDecode_eq_self_iff _).mpr hdec]

end Terminate

/-! ## Both requests -/

/-- **The requests of the API client.** A server reads the arguments of `GetSessionToken` and
of `EndCall` back from their URLs exactly when the user name and the channel id are safe at
their places; and safe arguments that a server reads as the same are the same.

**Proof sketch.** Each of the two equivalences is that of its URL. For the injectivity both sides
are read back, and what is read is the same. -/
theorem requests_read_back_iff (name pass sessionToken channelId : Bytes)
    (hname : NulFree name) (hpass : NulFree pass) (hchannel : NulFree channelId) :
    (LoginReads name pass ∧ TerminateReads sessionToken channelId ↔
      NameSafe name ∧ ChannelSafe channelId) ∧
    (∀ name' pass', NulFree name' → NulFree pass' → NameSafe name → NameSafe name' →
      (Url.parse (getSessionTokenRequest name pass).url).parameters =
        (Url.parse (getSessionTokenRequest name' pass').url).parameters →
      name = name' ∧ md5 pass = md5 pass') ∧
    (∀ channelId', NulFree channelId' → ChannelSafe channelId → ChannelSafe channelId' →
      Url.parse (endCallRequest sessionToken channelId).url =
        Url.parse (endCallRequest sessionToken channelId').url →
      channelId = channelId') := by
  refine ⟨and_congr (loginReads_iff name pass hname hpass)
    (terminateReads_iff sessionToken channelId hchannel), ?_, ?_⟩
  · intro name' pass' hname' hpass' hsafe hsafe' heq
    have h1 : LoginReads name pass := (loginReads_iff name pass hname hpass).mpr hsafe
    have h2 : LoginReads name' pass' := (loginReads_iff name' pass' hname' hpass').mpr hsafe'
    unfold LoginReads at h1 h2
    rw [heq, h2] at h1
    simp only [List.cons.injEq, Prod.mk.injEq, true_and, and_true] at h1
    exact ⟨h1.1.symm, h1.2.symm⟩
  · intro channelId' hchannel' hsafe hsafe' heq
    have h1 := ((terminateReads_iff sessionToken channelId hchannel).mpr hsafe).2.2
    have h2 := ((terminateReads_iff sessionToken channelId' hchannel').mpr hsafe').2.2
    rw [heq, h2] at h1
    simpa using h1.symm

/-- A name and a channel of letters, digits and the usual signs are read back. -/
theorem requests_read_back_bob :
    (LoginReads (bytes "bob@example.com") (bytes "secret") ∧
        TerminateReads (bytes "token") (bytes "100-0001") ↔
      NameSafe (bytes "bob@example.com") ∧ ChannelSafe (bytes "100-0001")) ∧
    NameSafe (bytes "bob@example.com") ∧ ChannelSafe (bytes "100-0001") :=
  ⟨(requests_read_back_iff (bytes "bob@example.com") (bytes "secret") (bytes "token")
    (bytes "100-0001") (by decide) (by decide) (by decide)).1, by decide, by decide⟩

/-- The plus sign of a plus-addressed e-mail is read as a space, and the part of a channel id
after a `#` is not read at all. -/
theorem requests_misread_plus_and_hash :
    ¬ LoginReads (bytes "bob+work@example.com") (bytes "secret") ∧
    ¬ TerminateReads (bytes "token") (bytes "100#1") := by
  constructor
  · rw [loginReads_iff _ _ (by decide) (by decide)]
    decide
  · rw [terminateReads_iff _ _ (by decide)]
    decide

end Nuacom
