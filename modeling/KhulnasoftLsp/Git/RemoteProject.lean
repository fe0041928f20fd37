import KhulnasoftLsp.Git.RemoteForms

/-!
# The project of a remote

`parseKhulnaSoftRemote` on the remotes of a project: the namespace and the slug that it returns
(`parseKhulnaSoftRemote_text`), and when they are those of the project
(`parseKhulnaSoftRemote_iff`). They are not

* when the slug is taken for one with a suffix: the dot of `(?:.git)?` is any character;
* when the remote has a scheme of HTTP, a user and a port: the pattern for remotes without a scheme
  puts the port into the path;
* when the path behind brackets begins with the path of the instance: a colon is in front of it.

The parser of URLs is a parameter. `ReadsHost` says what it does for a host.
-/

namespace KhulnasoftLsp.Git

open JsString Pattern

/-! ## The parser of URLs -/

/-- What a URL leaves as it is in its path. -/
structure IsSegment (s : JsString) : Prop where
  chars : ∀ u ∈ s, isNameChar u = true ∨ u = 0x003a
  notDot : s ≠ ofString "."
  notDots : s ≠ ofString ".."

def joinSegments (segments : List JsString) : JsString := segments.flatMap fun s => 0x002f :: s

/-- The parser takes a URL with this host apart. It gives the host the same name under each scheme,
and a URL of HTTP without a path has the path `/`. -/
structure ReadsHost (tryParseUrl : JsString → Option ParsedUrl) (host : HostName)
    (hostname : JsString) : Prop where
  path : ∀ scheme user port segments, segments ≠ [] → (∀ s ∈ segments, IsSegment s) →
    ∃ url, tryParseUrl (urlText scheme user host port (joinSegments segments)) = some url ∧
      url.hostname = hostname ∧ url.host ≠ [] ∧ url.pathname = joinSegments segments
  noPath : ∀ scheme port, scheme ≠ .ssh →
    ∃ url, tryParseUrl (urlText scheme none host port []) = some url ∧
      url.hostname = hostname ∧ url.pathname = ofString "/"

/-! ## The remote and the instance -/

/-- A remote of a project. Its path may begin with a route, the path of the instance. -/
structure Remote where
  form : RemoteForm
  host : HostName
  route : List Name
  pathNamespace : List Name
  nonempty : pathNamespace ≠ []
  slug : Name
  gitSuffix : Bool
  slash : Bool

/-- The URL of an instance. -/
structure InstanceUrl where
  scheme : Scheme
  web : scheme ≠ .ssh
  host : HostName
  port : Option Port
  route : List Name
  slash : Bool

def Name.withGit (n : Name) : Name where
  val := n.val ++ ofString ".git"
  nonempty := by
    intro h
    cases (List.append_eq_nil_iff.mp h).2
  chars u hu := by
    rcases List.mem_append.mp hu with hu | hu
    · exact n.chars u hu
    · have hgit : ∀ u ∈ ofString ".git", isNameChar u = true := List.all_eq_true.mp rfl
      exact hgit u hu
  notDot h := by
    have hlength := congrArg List.length h
    rw [List.length_append] at hlength
    simp [ofString] at hlength
  notDots h := by
    have hlength := congrArg List.length h
    rw [List.length_append] at hlength
    simp [ofString] at hlength

namespace Remote

def lastSegment (remote : Remote) : Name :=
  if remote.gitSuffix then remote.slug.withGit else remote.slug

def text (remote : Remote) : JsString :=
  remote.form.text remote.host
    (fullPath (remote.route ++ remote.pathNamespace ++ [remote.lastSegment]) ++
      trailingSlash remote.slash)

/-- The segments that are returned as the namespace. -/
def readNamespace (remote : Remote) (route : List Name) : List Name :=
  let segments := remote.form.portInPath ++ (remote.route ++ remote.pathNamespace)
  if remote.form.colonInPath then segments else behindPath route segments

end Remote

def InstanceUrl.text (instanceUrl : InstanceUrl) : JsString :=
  urlText instanceUrl.scheme none instanceUrl.host instanceUrl.port
    (slashed instanceUrl.route ++ trailingSlash instanceUrl.slash)

/-! ## The paths as the parser of URLs has them -/

theorem Name.isSegment (n : Name) : IsSegment n.val where
  chars u hu := .inl (n.chars u hu)
  notDot := n.notDot
  notDots := n.notDots

theorem isSegment_nil : IsSegment [] where
  chars := by simp
  notDot := by decide
  notDots := by decide

/-- A slash at the end is in front of an empty segment. -/
def slashSegments (slash : Bool) : List JsString := if slash then [[]] else []

theorem isSegment_of_mem_slashSegments {slash : Bool} : ∀ s ∈ slashSegments slash, IsSegment s := by
  cases slash with
  | false => simp [slashSegments]
  | true => simp [slashSegments, isSegment_nil]

theorem joinSegments_slashSegments (slash : Bool) :
    joinSegments (slashSegments slash) = trailingSlash slash := by
  cases slash <;> rfl

theorem joinSegments_append (segments segments' : List JsString) :
    joinSegments (segments ++ segments') = joinSegments segments ++ joinSegments segments' :=
  List.flatMap_append

theorem joinSegments_map (segments : List Name) :
    joinSegments (segments.map Name.val) = slashed segments := List.flatMap_map _ _ _

/-- The path of a remote, with a colon in front of it or without. -/
theorem exists_joinSegments (colon : Bool) {segments : List Name} (hne : segments ≠ [])
    (slash : Bool) :
    ∃ parts, parts ≠ [] ∧ (∀ s ∈ parts, IsSegment s) ∧ joinSegments parts =
      0x002f :: (leadingColon colon ++ (fullPath segments ++ trailingSlash slash)) := by
  obtain ⟨n, segments, rfl⟩ := List.exists_cons_of_ne_nil hne
  have hfirst : IsSegment (leadingColon colon ++ n.val) := by
    cases colon with
    | false => exact n.isSegment
    | true =>
        refine ⟨List.forall_mem_cons.mpr ⟨.inr rfl, fun u hu => .inl (n.chars u hu)⟩, ?_, ?_⟩
        · exact fun h => absurd (List.cons.inj h).1 (by decide)
        · exact fun h => absurd (List.cons.inj h).1 (by decide)
  refine ⟨(leadingColon colon ++ n.val) :: (segments.map Name.val ++ slashSegments slash),
    List.cons_ne_nil _ _, ?_, ?_⟩
  · intro s hs
    rcases List.mem_cons.mp hs with rfl | hs
    · exact hfirst
    · rcases List.mem_append.mp hs with hs | hs
      · obtain ⟨m, -, rfl⟩ := List.mem_map.mp hs
        exact m.isSegment
      · exact isSegment_of_mem_slashSegments s hs
  · show 0x002f :: (leadingColon colon ++ n.val) ++ joinSegments _ = _
    rw [joinSegments_append, joinSegments_map, joinSegments_slashSegments, fullPath_cons]
    simp

/-! ## The instance -/

section Instance

variable {tryParseUrl : JsString → Option ParsedUrl} {instanceUrl : InstanceUrl}
  {hostname : JsString} (hinstance : ReadsHost tryParseUrl instanceUrl.host hostname)

theorem withoutTrailingSlash_route (route : List Name) (slash : Bool) :
    withoutTrailingSlash (slashed route ++ trailingSlash slash) = slashed route := by
  cases slash with
  | true =>
      have hlast : (slashed route ++ trailingSlash true).getLast? = some 0x002f :=
        List.getLast?_append_of_ne_nil _ (by simp [trailingSlash])
      rw [withoutTrailingSlash, if_pos hlast]
      exact List.dropLast_concat
  | false =>
      have hlast : (slashed route).getLast? ≠ some 0x002f := by
        rcases List.eq_nil_or_concat route with rfl | ⟨route, n, rfl⟩
        · simp [slashed]
        · have hn : slashed [n] = ofString "/" ++ n.val := by simp [slashed, ofString]
          rw [List.concat_eq_append, slashed_append, hn, ← List.append_assoc,
            List.getLast?_append_of_ne_nil _ n.nonempty]
          exact fun h => ne_of_isNameChar (n.chars _ (List.mem_of_getLast? h)) rfl rfl
      rw [trailingSlash, if_neg (by decide), List.append_nil, withoutTrailingSlash, if_neg hlast]

include hinstance

theorem exists_instanceUrl :
    ∃ url, tryParseUrl instanceUrl.text = some url ∧ url.hostname = hostname ∧
      url.pathname ≠ [] ∧ withoutTrailingSlash url.pathname = slashed instanceUrl.route := by
  have hparts : slashed instanceUrl.route ++ trailingSlash instanceUrl.slash =
      joinSegments (instanceUrl.route.map Name.val ++ slashSegments instanceUrl.slash) := by
    rw [joinSegments_append, joinSegments_map, joinSegments_slashSegments]
  by_cases hpath : slashed instanceUrl.route ++ trailingSlash instanceUrl.slash = []
  · obtain ⟨url, hurl, hname, hpathname⟩ :=
      hinstance.noPath instanceUrl.scheme instanceUrl.port instanceUrl.web
    refine ⟨url, ?_, hname, ?_, ?_⟩
    · rw [InstanceUrl.text, hpath]
      exact hurl
    · rw [hpathname]
      decide
    · rw [hpathname, (List.append_eq_nil_iff.mp hpath).1]
      rfl
  · have hne : instanceUrl.route.map Name.val ++ slashSegments instanceUrl.slash ≠ [] := by
      intro h
      rw [hparts, h] at hpath
      exact hpath rfl
    have hsegments : ∀ s ∈ instanceUrl.route.map Name.val ++ slashSegments instanceUrl.slash,
        IsSegment s := by
      intro s hs
      rcases List.mem_append.mp hs with hs | hs
      · obtain ⟨n, -, rfl⟩ := List.mem_map.mp hs
        exact n.isSegment
      · exact isSegment_of_mem_slashSegments s hs
    obtain ⟨url, hurl, hname, -, hpathname⟩ :=
      hinstance.path instanceUrl.scheme none instanceUrl.port _ hne hsegments
    rw [← hparts] at hurl hpathname
    refine ⟨url, hurl, hname, ?_, ?_⟩
    · rw [hpathname]
      exact hpath
    · rw [hpathname, withoutTrailingSlash_route]

/-- The path that is skipped is the path of the URL, without a slash at the end. -/
theorem getInstancePath_text :
    getInstancePath tryParseUrl instanceUrl.text = slashed instanceUrl.route := by
  obtain ⟨url, hurl, -, hne, hpath⟩ := exists_instanceUrl hinstance
  rw [getInstancePath, hurl]
  show (if url.pathname ≠ [] then withoutTrailingSlash url.pathname else []) = _
  rw [if_pos hne, hpath]

theorem hostname_instance :
    (tryParseUrl (normalizeSshRemote instanceUrl.text)).map ParsedUrl.hostname = some hostname := by
  obtain ⟨url, hurl, hname, -⟩ := exists_instanceUrl hinstance
  rw [InstanceUrl.text, normalizeSshRemote_of_user_none _ _ isPathChar_of_mem_slashed]
  rw [InstanceUrl.text] at hurl
  rw [hurl, Option.map_some, hname]

end Instance

/-! ## What is returned -/

section Parse

variable {tryParseUrl : JsString → Option ParsedUrl} {remote : Remote} {instanceUrl : InstanceUrl}
  {hostname : JsString} (hremote : ReadsHost tryParseUrl remote.host hostname)
  (hinstance : ReadsHost tryParseUrl instanceUrl.host hostname)

/-- The pattern finds the namespace and the slug in the path that the rewriting leaves. -/
theorem first_pathPattern_remote (remote : Remote) (route : List Name) :
    first (pathPattern (slashed route))
        (0x002f :: (leadingColon remote.form.colonInPath ++
          (fullPath (remote.form.portInPath ++
            (remote.route ++ remote.pathNamespace ++ [remote.lastSegment])) ++
              trailingSlash remote.slash))) =
      some ((fullPath (remote.readNamespace route), withoutSuffix remote.lastSegment.val), []) := by
  have hne : remote.form.portInPath ++ (remote.route ++ remote.pathNamespace) ≠ [] := by
    simp [remote.nonempty]
  have hsegments : remote.form.portInPath ++
      (remote.route ++ remote.pathNamespace ++ [remote.lastSegment]) =
        remote.form.portInPath ++ (remote.route ++ remote.pathNamespace) ++ [remote.lastSegment] :=
    (List.append_assoc _ _ _).symm
  rw [hsegments, Remote.readNamespace]
  cases remote.form.colonInPath with
  | true => exact first_pathPattern_colon route hne remote.lastSegment remote.slash
  | false =>
      have hfirst := first_pathPattern route hne remote.lastSegment remote.slash
      have hslashed := slashed_eq (List.append_ne_nil_of_right_ne_nil
        (remote.form.portInPath ++ (remote.route ++ remote.pathNamespace))
        (List.cons_ne_nil remote.lastSegment []))
      rw [hslashed] at hfirst
      exact hfirst

include hremote hinstance

/-- **A remote on the host of the instance is parsed.** -/
theorem parseKhulnaSoftRemote_text :
    ∃ host, parseKhulnaSoftRemote tryParseUrl remote.text instanceUrl.text = some {
      host
      pathNamespace := fullPath (remote.readNamespace instanceUrl.route)
      projectPath := withoutSuffix remote.lastSegment.val
      namespaceWithPath := fullPath (remote.readNamespace instanceUrl.route) ++
        (ofString "/" ++ withoutSuffix remote.lastSegment.val) } := by
  obtain ⟨scheme, user, port, hnormalize⟩ := normalizeSshRemote_text remote.form remote.host
    (List.append_ne_nil_of_right_ne_nil (remote.route ++ remote.pathNamespace)
      (List.cons_ne_nil remote.lastSegment [])) remote.slash
  obtain ⟨parts, hparts, hsegments, hjoin⟩ := exists_joinSegments remote.form.colonInPath
    (List.append_ne_nil_of_right_ne_nil remote.form.portInPath
      (List.append_ne_nil_of_right_ne_nil (remote.route ++ remote.pathNamespace)
        (List.cons_ne_nil remote.lastSegment []))) remote.slash
  obtain ⟨url, hurl, hname, hhost, hpathname⟩ :=
    hremote.path scheme user port parts hparts hsegments
  rw [hjoin, ← hnormalize] at hurl
  rw [hjoin] at hpathname
  have hnonempty : instanceUrl.text ≠ [] := by
    rw [InstanceUrl.text, urlText]
    cases instanceUrl.scheme <;> simp [Scheme.text, ofString]
  have hfound := search_anywhere_all (first_pathPattern_remote remote instanceUrl.route)
  refine ⟨url.host, ?_⟩
  rw [parseKhulnaSoftRemote, Remote.text, hurl]
  show (if url.host = [] ∨ url.pathname = [] then none else _) = _
  rw [if_neg (by simp [hhost, hpathname]), hostname_instance hinstance, if_neg (by simp [hname]),
    if_pos (.inl hnonempty), getInstancePath_text hinstance, hpathname]
  show (search anywhere (pathPattern (slashed instanceUrl.route)) _).bind _ = _
  rw [hfound]
  rfl

end Parse

/-! ## When the project is found -/

namespace Remote

/-- The slug is not taken for one with a suffix. -/
def KeepsSlug (remote : Remote) : Prop :=
  remote.gitSuffix = true ∨
    ¬ (5 ≤ remote.slug.val.length ∧ ofString "git" <:+ remote.slug.val)

/-- No port is in the path, but one that is skipped as the path of the instance. -/
def SkipsPort (remote : Remote) (route : List Name) : Prop :=
  remote.form.portInPath = [] ∨ (remote.route = [] ∧ remote.form.portInPath = route)

/-- No colon is in front of the path of the instance. -/
def SkipsRoute (remote : Remote) : Prop :=
  remote.form.colonInPath = false ∨ remote.route = []

theorem keepsSlug_iff (remote : Remote) :
    withoutSuffix remote.lastSegment.val = remote.slug.val ↔ remote.KeepsSlug := by
  rw [KeepsSlug, lastSegment]
  cases remote.gitSuffix with
  | true =>
      have hsuffix := withoutSuffix_append remote.slug.nonempty 0x002e
      exact iff_of_true hsuffix (.inl rfl)
  | false =>
      rw [if_neg (by decide), withoutSuffix_eq_self_iff]
      simp

theorem portInPath_cases (form : RemoteForm) :
    form.portInPath = [] ∨ ∃ port, form.portInPath = [port] ∧ form.colonInPath = false := by
  cases form with
  | url scheme user port =>
      cases scheme <;> cases user <;> cases port <;> simp [RemoteForm.portInPath,
        RemoteForm.colonInPath]
  | scp user => exact .inl rfl
  | bracketed user port => exact .inl rfl

/-- A port in front is skipped as the path of the instance, and only so. -/
theorem behindPath_port_iff {port : Name} {route front pathNamespace : List Name}
    (hne : pathNamespace ≠ []) (hfront : front = [] ∨ front = route) :
    behindPath route (port :: (front ++ pathNamespace)) = pathNamespace ↔
      front = [] ∧ [port] = route := by
  constructor
  · intro h
    by_cases hbehind : ∃ behind, behind ≠ [] ∧ port :: (front ++ pathNamespace) = route ++ behind
    · obtain ⟨behind, hbehind, heq⟩ := hbehind
      rw [heq, behindPath_append route hbehind] at h
      subst h
      -- what is skipped is the port and the path in front of the namespace
      have hroute : port :: front = route := List.append_cancel_right heq
      rcases hfront with rfl | rfl
      · exact ⟨rfl, hroute⟩
      · exact absurd (congrArg List.length hroute) (by simp)
    · rw [behindPath_of_forall fun behind hne heq => hbehind ⟨behind, hne, heq⟩] at h
      have hlength := congrArg List.length h
      rw [List.length_cons, List.length_append] at hlength
      omega
  · rintro ⟨rfl, rfl⟩
    exact behindPath_append [port] hne

theorem behindPath_route {route front pathNamespace : List Name} (hne : pathNamespace ≠ [])
    (hfront : front = [] ∨ front = route)
    (hfirst : ∀ n ∈ route.head?, pathNamespace.head? ≠ some n) :
    behindPath route (front ++ pathNamespace) = pathNamespace := by
  rcases hfront with rfl | rfl
  · cases route with
    | nil => exact behindPath_append [] hne
    | cons n route =>
        apply behindPath_of_forall
        rintro behind - rfl
        exact hfirst n rfl rfl
  · exact behindPath_append front hne

theorem readNamespace_ne_nil (remote : Remote) (route : List Name) :
    remote.readNamespace route ≠ [] := by
  have hne : remote.form.portInPath ++ (remote.route ++ remote.pathNamespace) ≠ [] := by
    simp [remote.nonempty]
  rw [readNamespace]
  split
  · exact hne
  · exact behindPath_ne_nil route hne

theorem readNamespace_iff (remote : Remote) {route : List Name}
    (hroute : remote.route = [] ∨ remote.route = route)
    (hfirst : ∀ n ∈ route.head?, remote.pathNamespace.head? ≠ some n) :
    remote.readNamespace route = remote.pathNamespace ↔
      remote.SkipsPort route ∧ remote.SkipsRoute := by
  rw [readNamespace, SkipsPort, SkipsRoute]
  rcases portInPath_cases remote.form with hport | ⟨port, hport, hcolon⟩
  · rw [hport]
    cases remote.form.colonInPath with
    | true => simp
    | false =>
        have hbehind := behindPath_route remote.nonempty hroute hfirst
        exact iff_of_true hbehind ⟨.inl rfl, .inl rfl⟩
  · rw [hport, hcolon]
    have hbehind : behindPath route (port :: (remote.route ++ remote.pathNamespace)) =
        remote.pathNamespace ↔ remote.route = [] ∧ [port] = route :=
      behindPath_port_iff remote.nonempty hroute
    simpa using hbehind

end Remote

/-- The namespace and the slug of the remote are returned. -/
def Remote.IsParsed (tryParseUrl : JsString → Option ParsedUrl) (remote : Remote)
    (instanceUrl : JsString) : Prop :=
  ∃ parsed, parseKhulnaSoftRemote tryParseUrl remote.text instanceUrl = some parsed ∧
    parsed.pathNamespace = fullPath remote.pathNamespace ∧
    parsed.projectPath = remote.slug.val ∧
    parsed.namespaceWithPath =
      fullPath remote.pathNamespace ++ (ofString "/" ++ remote.slug.val)

/-- **The project of a remote on the host of the instance is found if and only if the slug is not
taken for one with a suffix, the port is not in the path, and no colon hides the path of the
instance.** -/
theorem parseKhulnaSoftRemote_iff {tryParseUrl : JsString → Option ParsedUrl} {remote : Remote}
    {instanceUrl : InstanceUrl} {hostname : JsString}
    (hremote : ReadsHost tryParseUrl remote.host hostname)
    (hinstance : ReadsHost tryParseUrl instanceUrl.host hostname)
    (hroute : remote.route = [] ∨ remote.route = instanceUrl.route)
    (hfirst : ∀ n ∈ instanceUrl.route.head?, remote.pathNamespace.head? ≠ some n) :
    remote.IsParsed tryParseUrl instanceUrl.text ↔
      remote.KeepsSlug ∧ remote.SkipsPort instanceUrl.route ∧ remote.SkipsRoute := by
  obtain ⟨host, hparse⟩ := parseKhulnaSoftRemote_text hremote hinstance
  have hslug := remote.keepsSlug_iff
  have hnamespace := remote.readNamespace_iff hroute hfirst
  rw [Remote.IsParsed, hparse, ← hslug, ← hnamespace]
  constructor
  · rintro ⟨parsed, heq, hpath, hproject, -⟩
    obtain rfl := Option.some.inj heq
    exact ⟨hproject, (fullPath_inj (remote.readNamespace_ne_nil _) remote.nonempty).mp hpath⟩
  · rintro ⟨hproject, hpath⟩
    refine ⟨_, rfl, ?_, hproject, ?_⟩
    · exact congrArg fullPath hpath
    · rw [hproject, hpath]

/-! ### A parser of URLs -/

/-- The scheme up to the colon, then what the URL names up to the first slash: the user up to the at
sign, the host up to the next colon. -/
def sampleUrlParser (text : JsString) : Option ParsedUrl :=
  let behind := (text.dropWhile (· != 0x003a)).drop 3
  let authority := behind.takeWhile notSlash
  let pathname := behind.dropWhile notSlash
  let host :=
    if 0x0040 ∈ authority then (authority.dropWhile (· != 0x0040)).drop 1 else authority
  some {
    hostname := host.takeWhile (· != 0x003a)
    host
    pathname := if pathname = [] then ofString "/" else pathname }

section SampleUrlParser

variable (user : Option User) (host : HostName) (port : Option Port)

theorem forall_mem_portText {p : UInt16 → Bool} (hcolon : p 0x003a = true)
    (hname : ∀ u, isNameChar u = true → p u = true) :
    ∀ u ∈ host.val ++ portText port, p u = true := by
  intro u hu
  rcases List.mem_append.mp hu with hu | hu
  · exact hname u (host.chars u hu)
  · cases port with
    | none => cases hu
    | some port =>
        rcases List.mem_cons.mp hu with rfl | hu
        · exact hcolon
        · exact hname u (isNameChar_of_isDigit (port.chars u hu))

theorem notSlash_of_mem_authority :
    ∀ u ∈ userText user ++ (host.val ++ portText port), notSlash u = true := by
  intro u hu
  rcases List.mem_append.mp hu with hu | hu
  · cases user with
    | none => cases hu
    | some user =>
        rcases List.mem_append.mp hu with hu | hu
        · exact notSlash_of_isNameChar (isNameChar_of_isUserChar (user.chars u hu))
        · obtain rfl := List.mem_singleton.mp hu
          rfl
  · exact forall_mem_portText host port rfl (fun u hu => notSlash_of_isNameChar hu) u hu

theorem sampleUrlParser_urlText (scheme : Scheme) {path : JsString}
    (hpath : ∀ u ∈ path.head?, notSlash u = false) :
    sampleUrlParser (urlText scheme user host port path) = some {
      hostname := host.val
      host := host.val ++ portText port
      pathname := if path = [] then ofString "/" else path } := by
  have hbehind : ((urlText scheme user host port path).dropWhile (· != 0x003a)).drop 3 =
      (userText user ++ (host.val ++ portText port)) ++ path := by
    cases scheme <;> simp [urlText, Scheme.text, ofString]
  have hname : ∀ {u v : UInt16}, isNameChar u = true → isNameChar v = false → (u != v) = true :=
    fun hu hv => bne_iff_ne.mpr (ne_of_isNameChar hu hv)
  have hat : ∀ u ∈ host.val ++ portText port, (u != 0x0040) = true :=
    forall_mem_portText host port rfl fun u hu => hname hu rfl
  have hauthority : (if 0x0040 ∈ userText user ++ (host.val ++ portText port) then
      ((userText user ++ (host.val ++ portText port)).dropWhile (· != 0x0040)).drop 1
      else userText user ++ (host.val ++ portText port)) = host.val ++ portText port := by
    cases user with
    | none =>
        have hnot : (0x0040 : UInt16) ∉ host.val ++ portText port := fun hu => by
          cases hat _ hu
        exact if_neg hnot
    | some user =>
        have huser : ∀ u ∈ user.val, (u != 0x0040) = true := fun u hu =>
          hname (isNameChar_of_isUserChar (user.chars u hu)) rfl
        have hdrop : (user.val ++ 0x0040 :: (host.val ++ portText port)).dropWhile (· != 0x0040) =
            0x0040 :: (host.val ++ portText port) :=
          List.dropWhile_run huser (List.head?_cons_not rfl _)
        have hsplit : userText (some user) ++ (host.val ++ portText port) =
            user.val ++ 0x0040 :: (host.val ++ portText port) := by simp [userText, ofString]
        rw [hsplit, hdrop, if_pos (by simp)]
        rfl
  have hhost : (host.val ++ portText port).takeWhile (· != 0x003a) = host.val := by
    refine List.takeWhile_run (fun u hu => hname (host.chars u hu) rfl) ?_
    cases port with
    | none => simp [portText]
    | some port => exact List.head?_cons_not rfl _
  rw [sampleUrlParser, hbehind]
  simp only [List.takeWhile_run (notSlash_of_mem_authority user host port) hpath,
    List.dropWhile_run (notSlash_of_mem_authority user host port) hpath, hauthority, hhost]

end SampleUrlParser

theorem readsHost_sampleUrlParser (host : HostName) :
    ReadsHost sampleUrlParser host host.val where
  path scheme user port segments hne hsegments := by
    obtain ⟨s, segments, rfl⟩ := List.exists_cons_of_ne_nil hne
    have hslash : ∀ u ∈ (joinSegments (s :: segments)).head?, notSlash u = false :=
      List.head?_cons_not rfl _
    refine ⟨_, sampleUrlParser_urlText user host port scheme hslash, rfl, ?_, rfl⟩
    simp [host.nonempty]
  noPath scheme port hscheme :=
    ⟨_, sampleUrlParser_urlText none host port scheme (by simp), rfl, rfl⟩

/-! ### Two remotes -/

def sampleHost : HostName := ⟨ofString "gitlab.com", by decide, List.all_eq_true.mp rfl⟩

def sampleName : Name :=
  ⟨ofString "group", by decide, List.all_eq_true.mp rfl, by decide, by decide⟩

/-- `https://gitlab.com/gitlab` -/
def routedInstance : InstanceUrl where
  scheme := .https
  web := by decide
  host := sampleHost
  port := none
  route := [⟨ofString "gitlab", by decide, List.all_eq_true.mp rfl, by decide, by decide⟩]
  slash := false

/-- `ssh://git@gitlab.com:2222/gitlab/group/group.git/` -/
def routedRemote : Remote where
  form := .url .ssh (some ⟨ofString "git", by decide, List.all_eq_true.mp rfl⟩)
    (some ⟨ofString "2222", by decide, List.all_eq_true.mp rfl, by decide⟩)
  host := sampleHost
  route := routedInstance.route
  pathNamespace := [sampleName]
  nonempty := by simp
  slug := sampleName
  gitSuffix := true
  slash := true

theorem routedRemote_isParsed : routedRemote.IsParsed sampleUrlParser routedInstance.text :=
  (parseKhulnaSoftRemote_iff (readsHost_sampleUrlParser sampleHost)
    (readsHost_sampleUrlParser sampleHost) (.inr rfl) (by decide)).mpr
      ⟨.inl rfl, .inl rfl, .inl rfl⟩

/-- `https://gitlab.com` -/
def plainInstance : InstanceUrl where
  scheme := .https
  web := by decide
  host := sampleHost
  port := none
  route := []
  slash := false

/-- `https://gitlab.com/group/mygit`: the `y` is taken for the dot of the suffix. -/
def mygitRemote : Remote where
  form := .url .https none none
  host := sampleHost
  route := []
  pathNamespace := [sampleName]
  nonempty := by simp
  slug := ⟨ofString "mygit", by decide, List.all_eq_true.mp rfl, by decide, by decide⟩
  gitSuffix := false
  slash := false

theorem mygitRemote_not_isParsed :
    ReadsHost sampleUrlParser sampleHost (ofString "gitlab.com") ∧
      mygitRemote.text = ofString "https://gitlab.com/group/mygit" ∧
      plainInstance.text = ofString "https://gitlab.com" ∧
      ¬ mygitRemote.IsParsed sampleUrlParser plainInstance.text := by
  refine ⟨readsHost_sampleUrlParser sampleHost, by decide +kernel, by decide +kernel, ?_⟩
  have hslug : (parseKhulnaSoftRemote sampleUrlParser mygitRemote.text plainInstance.text).map
      KhulnaSoftRemote.projectPath = some (ofString "m") := by decide +kernel
  rintro ⟨parsed, hparse, -, hproject, -⟩
  rw [hparse, Option.map_some, hproject] at hslug
  exact absurd (Option.some.inj hslug) (by decide)

end KhulnasoftLsp.Git
