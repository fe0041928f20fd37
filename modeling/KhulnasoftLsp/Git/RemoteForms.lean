import KhulnasoftLsp.Git.RemotePath

/-!
# The forms of a remote

The texts that a remote can have, and what `normalizeSshRemote` makes of each: a URL with the same
host, without the port of an SSH remote. The path of a remote in brackets keeps its colon, and the
port of an HTTP remote with a user ends up in the path: the pattern for remotes without a scheme is
found behind the scheme.

The main result is `normalizeSshRemote_text`.
-/

namespace KhulnasoftLsp.Git

open JsString Pattern

inductive Scheme where
  | http
  | https
  | ssh
  deriving DecidableEq, Repr

def Scheme.text : Scheme → JsString
  | .http => ofString "http"
  | .https => ofString "https"
  | .ssh => ofString "ssh"

/-- A user as the patterns name one. -/
structure User where
  val : JsString
  nonempty : val ≠ []
  chars : ∀ u ∈ val, isUserChar u = true

/-- The name of a host, or its IPv4 address. -/
structure HostName where
  val : JsString
  nonempty : val ≠ []
  chars : ∀ u ∈ val, isNameChar u = true

structure Port where
  val : JsString
  nonempty : val ≠ []
  chars : ∀ u ∈ val, isDigit u = true
  bound : val.foldl (fun n u => 10 * n + (u.toNat - 48)) 0 ≤ 65535

def userText : Option User → JsString
  | some user => user.val ++ ofString "@"
  | none => []

def portText : Option Port → JsString
  | some port => 0x003a :: port.val
  | none => []

def urlText (scheme : Scheme) (user : Option User) (host : HostName) (port : Option Port)
    (path : JsString) : JsString :=
  scheme.text ++ (ofString "://" ++ (userText user ++ (host.val ++ (portText port ++ path))))

/-- The forms that the parser names. -/
inductive RemoteForm where
  | url (scheme : Scheme) (user : Option User) (port : Option Port)
  | scp (user : User)
  | bracketed (user : User) (port : Port)

/-- `http://host/path`, `user@host:path` and `[user@host:port]:path`. -/
def RemoteForm.text (host : HostName) (path : JsString) : RemoteForm → JsString
  | .url scheme user port => urlText scheme user host port (0x002f :: path)
  | .scp user => user.val ++ (ofString "@" ++ (host.val ++ (ofString ":" ++ path)))
  | .bracketed user port =>
    ofString "[" ++ (user.val ++ (ofString "@" ++ (host.val ++ (ofString ":" ++
      (port.val ++ (ofString "]" ++ (ofString ":" ++ path)))))))

/-! ## What the letters are not -/

theorem isNameChar_of_isUserChar {u : UInt16} (hu : isUserChar u = true) : isNameChar u = true := by
  rw [isNameChar, hu, Bool.true_or]

theorem isNameChar_of_isDigit {u : UInt16} (hu : isDigit u = true) : isNameChar u = true := by
  rw [isNameChar, isUserChar, hu]
  simp

/-! ## What the patterns match -/

section UserAtHost

variable {β : Type} (Q : JsString → JsString → Pattern UInt16 β)

/-- `([a-zA-Z0-9_-]+@.*?):`, which the patterns for SSH remotes share. -/
def userAtHost : Pattern UInt16 β := do
  let user ← greedy 1 isUserChar
  let _ ← literal (ofString "@")
  let host ← lazy 0 dot
  let _ ← literal (ofString ":")
  Q user host

variable {Q}

/-- The user goes up to the at sign, and the host up to the first colon behind it. -/
theorem first_userAtHost {user : User} {host : HostName} {rest : JsString} {r : β × JsString}
    (h : first (Q user.val host.val) rest = some r) :
    first (userAtHost Q)
        (user.val ++ (ofString "@" ++ (host.val ++ (ofString ":" ++ rest)))) = some r := by
  have hcolon : first (literal (ofString ":") >>= fun _ => Q user.val host.val)
      (ofString ":" ++ rest) = some r := (first_literal_bind _ _ _).trans h
  have hdot : ∀ u ∈ host.val, dot u = true := fun u hu => dot_of_isNameChar (host.chars u hu)
  have hhost : first (lazy 0 dot >>= fun host => literal (ofString ":") >>= fun _ =>
      Q user.val host) (host.val ++ (ofString ":" ++ rest)) = some r := by
    refine first_lazy hdot (Nat.zero_le _) ?_ hcolon
    intro w rest' htext _ hlt
    rw [first_bind_eq_none]
    intro b behind hb
    -- a shorter host would end in front of a colon
    obtain ⟨rfl, rfl⟩ := mem_literal.mp hb
    obtain ⟨u, v, hval⟩ : ∃ u v, host.val = w ++ u :: v := by
      rcases List.append_eq_append_iff.mp htext with ⟨v, hval, -⟩ | ⟨v, rfl, -⟩
      · cases v with
        | nil => simp [hval] at hlt
        | cons u v => exact ⟨u, v, hval⟩
      · rw [List.length_append] at hlt
        omega
    have hu : isNameChar u = true := host.chars u (by simp [hval])
    rw [hval, List.append_assoc] at htext
    have heq := (List.cons.inj (List.append_cancel_left htext)).1
    exact absurd heq.symm (ne_of_isNameChar hu rfl)
  exact first_greedy_longest user.chars (List.length_pos_iff.mpr user.nonempty)
    (List.head?_cons_not rfl _) ((first_literal_bind (ofString "@") _ _).trans hhost)

theorem exists_of_mem_userAtHost {text : JsString} {r : β × JsString}
    (h : r ∈ userAtHost Q text) :
    ∃ user host rest, text = user ++ 0x0040 :: (host ++ 0x003a :: rest) ∧
      ∀ u ∈ user, isUserChar u = true := by
  simp only [userAtHost, mem_bind, mem_greedy, mem_literal, mem_lazy] at h
  obtain ⟨user, _, ⟨rfl, huser, -⟩, _, _, ⟨-, rfl⟩, host, _, ⟨rfl, -, -⟩, _, rest, ⟨-, rfl⟩, -⟩ := h
  exact ⟨user, host, rest, rfl, huser⟩

end UserAtHost

/-- The patterns for remotes with a user and something behind a colon are found in such texts. -/
def ColonBehindAt (text : JsString) : Prop :=
  ∃ front host rest, text = front ++ 0x0040 :: (host ++ 0x003a :: rest)

section NotFound

variable {text : JsString}

theorem sshRemoteWithCustomPort_eq_none (h : text.head? ≠ some 0x005b) :
    search atStart sshRemoteWithCustomPort text = none := by
  rw [search_atStart_eq_none_iff, sshRemoteWithCustomPort, first_bind_eq_none]
  intro b rest hb
  rw [(mem_literal.mp hb).2] at h
  exact absurd rfl h

theorem sshRemoteWithSchemeAndCustomPort_eq_none
    (h : ∀ rest, text = ofString "ssh://" ++ rest → ¬ ColonBehindAt rest) :
    search atStart sshRemoteWithSchemeAndCustomPort text = none := by
  rw [search_atStart_eq_none_iff, sshRemoteWithSchemeAndCustomPort, first_bind_eq_none]
  intro b rest hb
  rw [first_eq_none_iff]
  intro r hr
  obtain ⟨user, host, behind, hrest, -⟩ := exists_of_mem_userAtHost hr
  exact h rest (mem_literal.mp hb).2 ⟨user, host, behind, hrest⟩

theorem sshRemoteWithPath_eq_none (h : ¬ ColonBehindAt text) :
    search anywhere sshRemoteWithPath text = none := by
  rw [search_eq_none_iff]
  intro front rest htext _
  rw [first_eq_none_iff]
  intro r hr
  obtain ⟨user, host, behind, rfl, -⟩ := exists_of_mem_userAtHost hr
  refine h ⟨front ++ user, host, behind, ?_⟩
  rw [← htext, List.append_assoc]

theorem startingName_eq_none
    (h : ∀ user rest, (∀ u ∈ user, isUserChar u = true) → text ≠ user ++ 0x0040 :: rest) :
    search atStart startingName text = none := by
  rw [search_atStart_eq_none_iff, startingName, first_bind_eq_none]
  intro user rest huser
  obtain ⟨htext, hchars, -⟩ := mem_greedy.mp huser
  rw [first_bind_eq_none]
  intro b behind hb
  rw [(mem_literal.mp hb).2] at htext
  exact absurd htext (h user behind hchars)

end NotFound

/-! ## What is found -/

/-- A repetition that takes the rest of a text. -/
theorem first_greedy_all {β : Type} {Q : JsString → Pattern UInt16 β} {path : JsString}
    (hpath : ∀ u ∈ path, dot u = true) {r : β × JsString} (h : first (Q path) [] = some r) :
    first (greedy 0 dot >>= Q) path = some r := by
  have hlongest : first (greedy 0 dot >>= Q) (path ++ []) = some r :=
    first_greedy_longest hpath (Nat.zero_le _) (by simp) h
  rwa [List.append_nil] at hlongest

section Found

variable (user : User) (host : HostName) (port : Port) {path : JsString}
  (hpath : ∀ u ∈ path, dot u = true)

include hpath

theorem first_sshRemoteWithPath :
    first sshRemoteWithPath
        (user.val ++ (ofString "@" ++ (host.val ++ (ofString ":" ++ path)))) =
      some ((user.val ++ (ofString "@" ++ host.val), path), []) :=
  first_userAtHost (first_greedy_all hpath rfl)

theorem first_sshRemoteWithSchemeAndCustomPort :
    first sshRemoteWithSchemeAndCustomPort (ofString "ssh://" ++
        (user.val ++ (ofString "@" ++ (host.val ++ (ofString ":" ++
          (port.val ++ 0x002f :: path)))))) =
      some ((user.val ++ (ofString "@" ++ host.val), 0x002f :: path), []) := by
  have hslash : ∀ u ∈ (0x002f :: path : JsString), dot u = true :=
    List.forall_mem_cons.mpr ⟨rfl, hpath⟩
  refine (first_literal_bind (ofString "ssh://") _ _).trans (first_userAtHost ?_)
  exact first_greedy_longest port.chars (List.length_pos_iff.mpr port.nonempty)
    (List.head?_cons_not rfl _) (first_greedy_all hslash rfl)

theorem first_sshRemoteWithCustomPort :
    first sshRemoteWithCustomPort (ofString "[" ++
        (user.val ++ (ofString "@" ++ (host.val ++ (ofString ":" ++
          (port.val ++ (ofString "]" ++ path))))))) =
      some ((user.val ++ (ofString "@" ++ host.val), path), []) := by
  refine (first_literal_bind (ofString "[") _ _).trans (first_userAtHost ?_)
  exact first_greedy_longest port.chars (List.length_pos_iff.mpr port.nonempty)
    (List.head?_cons_not rfl _)
    ((first_literal_bind (ofString "]") _ _).trans (first_greedy_all hpath rfl))

end Found

/-! ## The rewriting -/

/-- A letter of the path of a project. -/
def isPathChar (u : UInt16) : Bool := isNameChar u || u == 0x002f

theorem ne_of_isPathChar {u v : UInt16} (hu : isPathChar u = true) (hv : isPathChar v = false) :
    u ≠ v := by
  rintro rfl
  rw [hu] at hv
  cases hv

theorem dot_of_isPathChar {u : UInt16} (hu : isPathChar u = true) : dot u = true := by
  rcases Bool.or_eq_true _ _ ▸ hu with hu | hu
  · exact dot_of_isNameChar hu
  · rw [beq_iff_eq.mp hu]
    rfl

theorem isUserChar_schemeText (scheme : Scheme) : ∀ u ∈ scheme.text, isUserChar u = true := by
  cases scheme <;> exact List.all_eq_true.mp rfl

theorem ColonBehindAt.append {text : JsString} (h : ColonBehindAt text) (front : JsString) :
    ColonBehindAt (front ++ text) := by
  obtain ⟨user, host, rest, rfl⟩ := h
  exact ⟨front ++ user, host, rest, (List.append_assoc _ _ _).symm⟩

theorem not_colonBehindAt_append {front rest : JsString} (hfront : 0x0040 ∉ front)
    (hrest : 0x003a ∉ rest) : ¬ ColonBehindAt (front ++ 0x0040 :: rest) := by
  rintro ⟨user, host, behind, htext⟩
  rcases List.append_eq_append_iff.mp htext with ⟨v, -, hv⟩ | ⟨v, rfl, hv⟩
  · have hmem : (0x003a : UInt16) ∈ (0x0040 :: rest : JsString) := by
      rw [hv]
      simp
    exact hrest (List.mem_of_ne_of_mem (by decide) hmem)
  · cases v with
    | nil =>
        apply hrest
        rw [← (List.cons.inj hv).2]
        simp
    | cons u v =>
        obtain rfl := (List.cons.inj hv).1
        exact hfront (by simp)

section Rewriting

variable (scheme : Scheme) (user : User) (host : HostName) (port : Port) {path : JsString}

theorem head?_urlText (user : Option User) (port : Option Port) (path : JsString) :
    (urlText scheme user host port path).head? ≠ some 0x005b := by
  cases scheme <;> simp [urlText, Scheme.text, ofString]

theorem urlText_of_user_port :
    urlText scheme (some user) host (some port) (0x002f :: path) =
      (scheme.text ++ ofString "://") ++
        (user.val ++ (ofString "@" ++ (host.val ++ (ofString ":" ++
          (port.val ++ 0x002f :: path))))) := by
  simp [urlText, userText, portText, ofString]

/-- A text without a colon behind an at sign that does not begin with a user is left as it is. -/
theorem normalizeSshRemote_urlText {user : Option User} {port : Option Port}
    (h : ¬ ColonBehindAt (urlText scheme user host port path)) :
    normalizeSshRemote (urlText scheme user host port path) =
      urlText scheme user host port path := by
  have hcustomPort : ∀ rest, urlText scheme user host port path = ofString "ssh://" ++ rest →
      ¬ ColonBehindAt rest := by
    intro rest htext hrest
    rw [htext] at h
    exact h (hrest.append _)
  have hname : ∀ name rest, (∀ u ∈ name, isUserChar u = true) →
      urlText scheme user host port path ≠ name ++ 0x0040 :: rest := by
    intro name rest hname htext
    have hunique := List.run_unique (isUserChar_schemeText scheme) (List.head?_cons_not rfl _) hname
      (List.head?_cons_not rfl _) htext
    cases hunique.2
  rw [normalizeSshRemote,
    sshRemoteWithCustomPort_eq_none (head?_urlText scheme host user port path),
    sshRemoteWithSchemeAndCustomPort_eq_none hcustomPort, sshRemoteWithPath_eq_none h,
    startingName_eq_none hname]

theorem not_mem_schemeText {u : UInt16} (hu : isUserChar u = false) : u ∉ scheme.text := by
  intro hmem
  rw [isUserChar_schemeText scheme u hmem] at hu
  cases hu

/-- What ends in front of the at sign and is made of the letters of a user is in the user. -/
theorem length_le_of_user {front rest behind name : JsString}
    (hname : ∀ u ∈ name, isUserChar u = true)
    (htext : front ++ (name ++ 0x0040 :: behind) =
      (scheme.text ++ ofString "://") ++ (user.val ++ 0x0040 :: rest)) :
    (scheme.text ++ ofString "://").length ≤ front.length := by
  have hscheme : ∀ u ∈ scheme.text ++ ofString "://", (u != 0x0040) = true := by
    cases scheme <;> exact List.all_eq_true.mp rfl
  have huser : ∀ name : JsString, (∀ u ∈ name, isUserChar u = true) →
      ∀ u ∈ name, (u != 0x0040) = true := fun name hname u hu =>
    bne_iff_ne.mpr (ne_of_isNameChar (isNameChar_of_isUserChar (hname u hu)) rfl)
  rcases List.append_eq_append_iff.mp htext with ⟨v, hfront, hv⟩ | ⟨v, hfront, -⟩
  · have hvchars : ∀ u ∈ v, (u != 0x0040) = true := fun u hu =>
      hscheme u (by rw [hfront]; exact List.mem_append_right _ hu)
    rw [← List.append_assoc] at hv
    have hvuser : ∀ u ∈ v ++ user.val, (u != 0x0040) = true := fun u hu =>
      (List.mem_append.mp hu).elim (hvchars u) (huser _ user.chars u)
    have hunique := List.run_unique (huser name hname) (List.head?_cons_not rfl _) hvuser
      (List.head?_cons_not rfl _) hv
    by_contra hlt
    have hne : v ≠ [] := by
      rintro rfl
      rw [List.append_nil] at hfront
      rw [hfront] at hlt
      exact hlt le_rfl
    -- the scheme ends in a slash, which no user has
    have hlast : v.getLast? = some 0x002f := by
      rw [← List.getLast?_append_of_ne_nil front hne, ← hfront]
      cases scheme <;> rfl
    have hslash := hname 0x002f (by
      rw [hunique.1]
      exact List.mem_append_left _ (List.mem_of_getLast? hlast))
    cases hslash
  · exact (List.prefix_append _ v).length_le.trans_eq (congrArg List.length hfront).symm

section Path

variable (hpath : ∀ u ∈ path, isPathChar u = true)

include hpath

/-- A URL without a user is left as it is. -/
theorem normalizeSshRemote_of_user_none (port : Option Port) :
    normalizeSshRemote (urlText scheme none host port path) =
      urlText scheme none host port path := by
  apply normalizeSshRemote_urlText
  rintro ⟨front, name, rest, htext⟩
  have hmem : (0x0040 : UInt16) ∈ urlText scheme none host port path := by
    rw [htext]
    simp
  have hhost : (0x0040 : UInt16) ∉ host.val := fun hu =>
    ne_of_isNameChar (host.chars _ hu) rfl rfl
  have hport : (0x0040 : UInt16) ∉ portText port := by
    cases port with
    | none => simp [portText]
    | some port =>
        have hdigits : (0x0040 : UInt16) ∉ port.val := fun hu =>
          ne_of_isNameChar (isNameChar_of_isDigit (port.chars _ hu)) rfl rfl
        simp [portText, hdigits]
  have hbehind : (0x0040 : UInt16) ∉ path := fun hu => ne_of_isPathChar (hpath _ hu) rfl rfl
  have hscheme : (0x0040 : UInt16) ∉ scheme.text := not_mem_schemeText scheme rfl
  simp [urlText, userText, ofString, hscheme, hhost, hport, hbehind] at hmem

/-- A URL without a port is left as it is. -/
theorem normalizeSshRemote_of_port_none :
    normalizeSshRemote (urlText scheme (some user) host none path) =
      urlText scheme (some user) host none path := by
  apply normalizeSshRemote_urlText
  have hsplit : urlText scheme (some user) host none path =
      (scheme.text ++ (ofString "://" ++ user.val)) ++ 0x0040 :: (host.val ++ path) := by
    simp [urlText, userText, portText, ofString]
  have hscheme : (0x0040 : UInt16) ∉ scheme.text := not_mem_schemeText scheme rfl
  have huser : (0x0040 : UInt16) ∉ user.val := fun hu =>
    ne_of_isNameChar (isNameChar_of_isUserChar (user.chars _ hu)) rfl rfl
  have hhost : (0x003a : UInt16) ∉ host.val := fun hu =>
    ne_of_isNameChar (host.chars _ hu) rfl rfl
  have hbehind : (0x003a : UInt16) ∉ path := fun hu => ne_of_isPathChar (hpath _ hu) rfl rfl
  rw [hsplit]
  apply not_colonBehindAt_append
  · simp [ofString, hscheme, huser]
  · simp [hhost, hbehind]

/-- The port of an SSH remote is left out. -/
theorem normalizeSshRemote_of_ssh :
    normalizeSshRemote (urlText .ssh (some user) host (some port) (0x002f :: path)) =
      urlText .ssh (some user) host none (0x002f :: path) := by
  have hdot : ∀ u ∈ path, dot u = true := fun u hu => dot_of_isPathChar (hpath u hu)
  have hbracket := head?_urlText .ssh host (some user) (some port) (0x002f :: path)
  have hfirst := first_sshRemoteWithSchemeAndCustomPort user host port hdot
  rw [normalizeSshRemote, sshRemoteWithCustomPort_eq_none hbracket, urlText_of_user_port]
  rw [show Scheme.ssh.text ++ ofString "://" = ofString "ssh://" from rfl,
    search_atStart_all hfirst]
  simp [urlText, userText, portText, Scheme.text, sshScheme, ofString]

/-- The port of a remote with a user and without the scheme of SSH ends up in the path. -/
theorem normalizeSshRemote_of_http (hscheme : scheme ≠ .ssh) :
    normalizeSshRemote (urlText scheme (some user) host (some port) (0x002f :: path)) =
      urlText .ssh (some user) host none (0x002f :: (port.val ++ 0x002f :: path)) := by
  have hdot : ∀ u ∈ port.val ++ 0x002f :: path, dot u = true := by
    intro u hu
    rcases List.mem_append.mp hu with hu | hu
    · exact dot_of_isNameChar (isNameChar_of_isDigit (port.chars u hu))
    · rcases List.mem_cons.mp hu with rfl | hu
      · rfl
      · exact dot_of_isPathChar (hpath u hu)
  have hfirst := first_sshRemoteWithPath user host hdot
  have hbracket := head?_urlText scheme host (some user) (some port) (0x002f :: path)
  have hcustomPort : ∀ rest, urlText scheme (some user) host (some port) (0x002f :: path) =
      ofString "ssh://" ++ rest → ¬ ColonBehindAt rest := by
    intro rest hssh
    cases scheme with
    | http => cases hssh
    | https => cases hssh
    | ssh => exact absurd rfl hscheme
  have hearlier : ∀ front rest, front ++ rest = (scheme.text ++ ofString "://") ++
      (user.val ++ (ofString "@" ++ (host.val ++ (ofString ":" ++
        (port.val ++ 0x002f :: path))))) →
      front.length < (scheme.text ++ ofString "://").length →
      first sshRemoteWithPath rest = none := by
    intro front rest hrest hlt
    rw [first_eq_none_iff]
    intro r hr
    obtain ⟨name, _, _, rfl, hname⟩ := exists_of_mem_userAtHost hr
    exact absurd (length_le_of_user scheme user hname hrest) (not_le.mpr hlt)
  rw [normalizeSshRemote, sshRemoteWithCustomPort_eq_none hbracket,
    sshRemoteWithSchemeAndCustomPort_eq_none hcustomPort, urlText_of_user_port,
    search_anywhere_of_first hfirst _ hearlier]
  simp [urlText, userText, portText, Scheme.text, sshScheme, ofString]

theorem normalizeSshRemote_of_scp :
    normalizeSshRemote ((RemoteForm.scp user).text host path) =
      urlText .ssh (some user) host none (0x002f :: path) := by
  have hdot : ∀ u ∈ path, dot u = true := fun u hu => dot_of_isPathChar (hpath u hu)
  obtain ⟨u, name, hval⟩ := List.exists_cons_of_ne_nil user.nonempty
  have hu : isUserChar u = true := user.chars u (by simp [hval])
  have hbracket : ((RemoteForm.scp user).text host path).head? ≠ some 0x005b := by
    rw [RemoteForm.text, hval]
    exact fun h => ne_of_isNameChar (isNameChar_of_isUserChar hu) rfl (Option.some.inj h)
  have hcustomPort : ∀ rest, (RemoteForm.scp user).text host path = ofString "ssh://" ++ rest →
      ¬ ColonBehindAt rest := by
    intro rest htext
    have hscheme : user.val ++ (ofString "@" ++ (host.val ++ (ofString ":" ++ path))) =
        Scheme.ssh.text ++ (ofString "://" ++ rest) := htext
    have hunique := List.run_unique user.chars (List.head?_cons_not rfl _)
      (isUserChar_schemeText .ssh) (List.head?_cons_not rfl _) hscheme
    cases hunique.2
  rw [normalizeSshRemote, sshRemoteWithCustomPort_eq_none hbracket,
    sshRemoteWithSchemeAndCustomPort_eq_none hcustomPort, RemoteForm.text,
    search_anywhere_all (first_sshRemoteWithPath user host hdot)]
  simp [urlText, userText, portText, Scheme.text, sshScheme, ofString]

/-- The colon behind the brackets stays. -/
theorem normalizeSshRemote_of_bracketed :
    normalizeSshRemote ((RemoteForm.bracketed user port).text host path) =
      urlText .ssh (some user) host none (0x002f :: 0x003a :: path) := by
  have hdot : ∀ u ∈ ofString ":" ++ path, dot u = true :=
    List.forall_mem_cons.mpr ⟨rfl, fun u hu => dot_of_isPathChar (hpath u hu)⟩
  rw [normalizeSshRemote, RemoteForm.text,
    search_atStart_all (first_sshRemoteWithCustomPort user host port hdot)]
  simp [urlText, userText, portText, Scheme.text, sshScheme, ofString]

end Path

end Rewriting

/-! ## The path that is left -/

/-- A port that is read as a name in the path. -/
def Port.name (port : Port) : Name where
  val := port.val
  nonempty := port.nonempty
  chars u hu := isNameChar_of_isDigit (port.chars u hu)
  notDot h := by
    have hdot : isDigit 0x002e = true := port.chars _ (by rw [h]; decide)
    cases hdot
  notDots h := by
    have hdot : isDigit 0x002e = true := port.chars _ (by rw [h]; decide)
    cases hdot

namespace RemoteForm

/-- The port of a remote with a user and without the scheme of SSH. -/
def portInPath : RemoteForm → List Name
  | .url .ssh _ _ => []
  | .url _ (some _) (some port) => [port.name]
  | _ => []

/-- The colon is in front of the path only behind brackets. -/
def colonInPath : RemoteForm → Bool
  | .bracketed _ _ => true
  | _ => false

end RemoteForm

theorem isPathChar_of_mem_slashed {segments : List Name} {slash : Bool} :
    ∀ u ∈ slashed segments ++ trailingSlash slash, isPathChar u = true := by
  intro u hu
  rcases List.mem_append.mp hu with hu | hu
  · obtain ⟨n, -, hu⟩ := List.mem_flatMap.mp hu
    rcases List.mem_cons.mp hu with rfl | hu
    · rfl
    · rw [isPathChar, n.chars u hu, Bool.true_or]
  · cases slash with
    | false => cases hu
    | true =>
        obtain rfl := List.mem_singleton.mp hu
        rfl

/-- **Each form is rewritten to a URL with the same host. Its path has the segments of the remote,
and in front of them the port or the colon that the rewriting leaves.** -/
theorem normalizeSshRemote_text (form : RemoteForm) (host : HostName) {segments : List Name}
    (hne : segments ≠ []) (slash : Bool) :
    ∃ scheme user port,
      normalizeSshRemote (form.text host (fullPath segments ++ trailingSlash slash)) =
        urlText scheme user host port (0x002f :: (leadingColon form.colonInPath ++
          (fullPath (form.portInPath ++ segments) ++ trailingSlash slash))) := by
  have hslash : ∀ u ∈ 0x002f :: (fullPath segments ++ trailingSlash slash),
      isPathChar u = true := by
    rw [← List.cons_append, ← slashed_eq hne]
    exact isPathChar_of_mem_slashed
  have hpath := (List.forall_mem_cons.mp hslash).2
  cases form with
  | url scheme user port =>
      cases user with
      | none =>
          refine ⟨scheme, none, port, ?_⟩
          cases scheme <;> exact normalizeSshRemote_of_user_none _ host hslash port
      | some user =>
          cases port with
          | none =>
              refine ⟨scheme, some user, none, ?_⟩
              cases scheme <;> exact normalizeSshRemote_of_port_none _ user host hslash
          | some port =>
              have hport : fullPath (port.name :: segments) ++ trailingSlash slash =
                  port.val ++ 0x002f :: (fullPath segments ++ trailingSlash slash) := by
                rw [fullPath_cons, slashed_eq hne, List.append_assoc]
                rfl
              refine ⟨.ssh, some user, none, ?_⟩
              cases scheme with
              | ssh => exact normalizeSshRemote_of_ssh user host port hpath
              | http =>
                  rw [RemoteForm.text, normalizeSshRemote_of_http .http user host port hpath
                    (by decide), ← hport]
                  rfl
              | https =>
                  rw [RemoteForm.text, normalizeSshRemote_of_http .https user host port hpath
                    (by decide), ← hport]
                  rfl
  | scp user => exact ⟨.ssh, some user, none, normalizeSshRemote_of_scp user host hpath⟩
  | bracketed user port =>
      exact ⟨.ssh, some user, none, normalizeSshRemote_of_bracketed user host port hpath⟩

end KhulnasoftLsp.Git
