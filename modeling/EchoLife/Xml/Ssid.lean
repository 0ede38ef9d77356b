import EchoLife.Xml.Attributes
import EchoLife.Xml.Parse

/-!
# Network names

A network name may have any characters. `EncodeSsid` replaces those that have a meaning in a
document by the bytes 1 to 6, in the place where the name stands, and `DecodeSsid` puts them back.

`ssid_reads` says that a name without these bytes is printed without any of the characters, is read
as one attribute as it is printed, and is decoded to what it was.
-/

namespace EchoLife.Xml

open List TextSearch

/-! ## Replacing characters in place -/

def strlen (s : List UInt8) : Nat := (s.takeWhile (· ≠ 0)).length

theorem strlen_le (s : List UInt8) : strlen s ≤ s.length := (takeWhile_sublist _).length_le

def replaceLoop (replace : UInt8 → UInt8) (i : Nat) (ssid : List UInt8) : List UInt8 :=
  if i < strlen ssid then replaceLoop replace (i + 1) (ssid.modify i replace) else ssid
termination_by ssid.length - i
decreasing_by
  have size := strlen_le ssid
  rw [length_modify]
  omega

def encodeChar (c : UInt8) : UInt8 :=
  if c = 60 then 1
  else if c = 34 then 2
  else if c = 62 then 3
  else if c = 61 then 4
  else if c = 47 then 5
  else if c = 38 then 6
  else c

def decodeChar (c : UInt8) : UInt8 :=
  if c = 1 then 60
  else if c = 2 then 34
  else if c = 3 then 62
  else if c = 4 then 61
  else if c = 5 then 47
  else if c = 6 then 38
  else c

def encodeSsid (ssid : List UInt8) : List UInt8 := replaceLoop encodeChar 0 ssid

def decodeSsid (ssid : List UInt8) : List UInt8 := replaceLoop decodeChar 0 ssid

variable {s ssid : List UInt8}

theorem strlen_text (string : 0 ∉ s) (rest : List UInt8) : strlen (s ++ 0 :: rest) = s.length := by
  have goesOn : ∀ c ∈ s, (c ≠ 0 : Bool) = true := fun c mem =>
    decide_eq_true (ne_of_mem_of_not_mem mem string)
  rw [strlen, takeWhile_append_of_pos goesOn, takeWhile_cons_of_neg (by simp),
    append_nil]

theorem modify_at (front rest : List UInt8) (c : UInt8) (f : UInt8 → UInt8) :
    (front ++ c :: rest).modify front.length f = front ++ f c :: rest := by
  induction front with
  | nil => rfl
  | cons d front ih => rw [cons_append, length_cons, modify_succ_cons, ih]; rfl

theorem replaceLoop_text {replace : UInt8 → UInt8} (goesOn : ∀ c, c ≠ 0 → replace c ≠ 0)
    {front : List UInt8} (before : 0 ∉ front) (string : 0 ∉ s) (rest : List UInt8) :
    replaceLoop replace front.length (front ++ (s ++ 0 :: rest))
      = front ++ (s.map replace ++ 0 :: rest) := by
  induction s generalizing front with
  | nil =>
    rw [replaceLoop, nil_append, strlen_text before, if_neg (Nat.lt_irrefl _)]
    rfl
  | cons c s ih =>
    obtain ⟨here, later⟩ := ne_and_not_mem_of_not_mem_cons string
    have inside : front.length < strlen (front ++ (c :: s ++ 0 :: rest)) := by
      have whole : 0 ∉ front ++ c :: s := not_mem_append before string
      rw [← append_assoc, strlen_text whole, length_append]
      exact Nat.lt_add_of_pos_right (Nat.succ_pos _)
    have next : 0 ∉ front ++ [replace c] :=
      not_mem_append before (by simpa using (goesOn c here.symm).symm)
    have step := ih next later
    rw [length_append, length_singleton, append_assoc, append_assoc] at step
    rw [replaceLoop, if_pos inside, cons_append, modify_at]
    exact step

theorem encodeChar_goesOn (c : UInt8) (nonzero : c ≠ 0) : encodeChar c ≠ 0 := by
  rw [encodeChar]
  repeat' split
  all_goals first | decide | exact nonzero

theorem decodeChar_goesOn (c : UInt8) (nonzero : c ≠ 0) : decodeChar c ≠ 0 := by
  rw [decodeChar]
  repeat' split
  all_goals first | decide | exact nonzero

theorem encodeSsid_text (string : 0 ∉ s) (rest : List UInt8) :
    encodeSsid (s ++ 0 :: rest) = s.map encodeChar ++ 0 :: rest :=
  replaceLoop_text encodeChar_goesOn not_mem_nil string rest

theorem decodeSsid_text (string : 0 ∉ s) (rest : List UInt8) :
    decodeSsid (s ++ 0 :: rest) = s.map decodeChar ++ 0 :: rest :=
  replaceLoop_text decodeChar_goesOn not_mem_nil string rest

def marks : List UInt8 := [60, 34, 62, 61, 47, 38]

theorem encodeChar_not_mem (c : UInt8) : encodeChar c ∉ marks := by
  rw [encodeChar]
  repeat' split
  all_goals first | decide | simp_all [marks]

theorem decodeChar_encodeChar {c : UInt8} (plain : ¬ (1 ≤ c ∧ c ≤ 6)) :
    decodeChar (encodeChar c) = c := by
  rw [encodeChar]
  repeat' split
  all_goals first | (subst_vars; rfl) | skip
  have apart : ∀ d : UInt8, 1 ≤ d ∧ d ≤ 6 → c ≠ d := by
    rintro d inside rfl
    exact plain inside
  rw [decodeChar, if_neg (apart 1 (by decide)), if_neg (apart 2 (by decide)),
    if_neg (apart 3 (by decide)), if_neg (apart 4 (by decide)), if_neg (apart 5 (by decide)),
    if_neg (apart 6 (by decide))]

/-! ## Writing the networks -/

structure WirelessMssidVar where
  wlSsid : List UInt8
  string : 0 ∉ wlSsid
  wlKeys128 : Fin 4 → List UInt8
  wlKeys64 : Fin 4 → List UInt8
  wlWpaPsk : List UInt8
  wlRadiusKey : List UInt8
  wlWep : List UInt8
  wlWpa : List UInt8
  wlRadiusServerIP : Fin 4 → UInt8
  wlAuthMode : List UInt8
  wlWpaGTKRekey : Int
  wlRadiusPort : Int
  wlAuth : Int
  wlEnblSsid : Int
  wlKeyIndex128 : Int
  wlKeyIndex64 : Int
  wlKeyBit : Int
  wlPreauth : Fin 2
  wlNetReauth : Int
  wlHide : Int
  wlAPIsolation : Fin 2
  wlMaxAssoc : Int
  wlDisableWme : Fin 2
  wlFltMacMode : List UInt8
  tr69cBeaconType : Fin 8
  tr69cBasicEncryptionModes : Fin 2
  tr69cBasicAuthenticationMode : Fin 3
  tr69cWPAEncryptionModes : Fin 7
  tr69cWPAAuthenticationMode : Fin 2
  tr69cIEEE11iEncryptionModes : Fin 7
  tr69cIEEE11iAuthenticationMode : Fin 3
  wsc_mode : List UInt8
  wsc_config_state : List UInt8

def strcasecmpEq (s : List UInt8) (word : String) : Bool :=
  s.map toLower = (ascii word).map toLower

def genOnOffState : Fin 2 → List UInt8 := pick ![ "off", "on"]

def xmlWlSetWebAttr (wlVars : WirelessMssidVar) : List UInt8 :=
  (if strcasecmpEq wlVars.wlWep "disabled" then fprintf " wep=\"disabled\"" []
    else fprintf " wep=\"enabled\"" []) ++
  fprintf " auth=\"%d\"" [printD wlVars.wlAuth]

def xmlWlSetEncrytionAttr (wlVars : WirelessMssidVar) : List UInt8 :=
  if strcasecmpEq wlVars.wlWpa "tkip" then fprintf " wpa=\"tkip\"" []
  else if strcasecmpEq wlVars.wlWpa "aes" then fprintf " wpa=\"aes\"" []
  else if strcasecmpEq wlVars.wlWpa "tkip+aes" then fprintf " wpa=\"tkip+aes\"" []
  else []

def Tr69c.beaconType : Fin 8 → List UInt8 :=
  pick ![ "None", "Basic", "WPA", "11i", "BasicandWPA", "Basicand11i", "WPAand11i",
    "BasicandWPAand11i"]

def Tr69c.basicEncryptionModes : Fin 2 → List UInt8 := pick ![ "None", "WEPEncryption"]

def Tr69c.basicAuthenticationMode : Fin 3 → List UInt8 :=
  pick ![ "None", "EAPAuthentication", "SharedAuthentication"]

def Tr69c.encryptionModes : Fin 7 → List UInt8 :=
  pick ![ "WEPEncryption", "TKIPEncryption", "WEPandTKIPEncryption", "AESEncryption",
    "WEPandAESEncryption", "TKIPandAESEncryption", "WEPandTKIPandAESEncryption"]

def Tr69c.wpaAuthenticationMode : Fin 2 → List UInt8 :=
  pick ![ "PSKAuthentication", "EAPAuthentication"]

def Tr69c.ieee11iAuthenticationMode : Fin 3 → List UInt8 :=
  pick ![ "PSKAuthentication", "EAPAuthentication", "EAPandPSKAuthentication"]

def xmlWlSetTr069SecurityAttr (wlVars : WirelessMssidVar) : List UInt8 :=
  fprintf " tr69cBeaconType=\"%s\"" [Tr69c.beaconType wlVars.tr69cBeaconType] ++
  fprintf " tr69cBasicEncryptionModes=\"%s\""
    [Tr69c.basicEncryptionModes wlVars.tr69cBasicEncryptionModes] ++
  fprintf " tr69cBasicAuthenticationMode=\"%s\""
    [Tr69c.basicAuthenticationMode wlVars.tr69cBasicAuthenticationMode] ++
  fprintf " tr69cWPAEncryptionModes=\"%s\""
    [Tr69c.encryptionModes wlVars.tr69cWPAEncryptionModes] ++
  fprintf " tr69cWPAAuthenticationMode=\"%s\""
    [Tr69c.wpaAuthenticationMode wlVars.tr69cWPAAuthenticationMode] ++
  fprintf " tr69cIEEE11iEncryptionModes=\"%s\""
    [Tr69c.encryptionModes wlVars.tr69cIEEE11iEncryptionModes] ++
  fprintf " tr69cIEEE11iAuthenticationMode=\"%s\""
    [Tr69c.ieee11iAuthenticationMode wlVars.tr69cIEEE11iAuthenticationMode]

def xmlWlSetEncryptionStrengthAttr (wlVars : WirelessMssidVar) : List UInt8 :=
  (if wlVars.wlKeyBit = 1 then fprintf " keyBit=\"64-bit\"" []
    else fprintf " keyBit=\"128-bit\"" []) ++
  (List.finRange 4).flatMap (fun i =>
    fprintf " key64_%d=\"%s\"" [printD (i.val + 1), wlVars.wlKeys64 i]) ++
  fprintf " key64Index=\"%d\"" [printD wlVars.wlKeyIndex64] ++
  (List.finRange 4).flatMap (fun i =>
    fprintf " key128_%d=\"%s\" " [printD (i.val + 1), wlVars.wlKeys128 i]) ++
  fprintf " key128Index=\"%d\"" [printD wlVars.wlKeyIndex128]

def xmlWlSetRadiusServerAttr (wlVars : WirelessMssidVar) : List UInt8 :=
  fprintf " radiusServerIP=\"%s\" radiusServerPort=\"%d\" radiusServerKey=\"%s\""
    [inetNtoa wlVars.wlRadiusServerIP, printD wlVars.wlRadiusPort, wlVars.wlRadiusKey]

def xmlWlSetAllSecurityAttr (wlVars : WirelessMssidVar) : List UInt8 :=
  fprintf " authMode=\"%s\"" [wlVars.wlAuthMode] ++
  xmlWlSetRadiusServerAttr wlVars ++
  xmlWlSetWebAttr wlVars ++
  xmlWlSetEncryptionStrengthAttr wlVars ++
  fprintf " wpaRekey=\"%d\"" [printD wlVars.wlWpaGTKRekey] ++
  fprintf " wpakey=\"%s\" " [wlVars.wlWpaPsk] ++
  fprintf " Preauthentication=\"%s\" ReauthTimeout=\"%d\""
    [genOnOffState wlVars.wlPreauth, printD wlVars.wlNetReauth] ++
  xmlWlSetEncrytionAttr wlVars ++
  xmlWlSetTr069SecurityAttr wlVars

def wirelessObjs : List (List UInt8) :=
  [ascii "*", ascii "vars", ascii "wlMssidVars", ascii "wlMssidEntry", ascii "wlMacFilter",
    ascii "wlMacEntry", ascii "wdsFilter", ascii "wdsEntry", ascii "scanWdsFilter",
    ascii "scanWdsEntry"]

def pszSsid (wlSsid : List UInt8) : List UInt8 :=
  (encodeSsid (wlSsid ++ [0])).takeWhile (· ≠ 0)

def mssidEntry (entry : WirelessMssidVar) : List UInt8 :=
  fprintf " hide=\"%d\" apIsolation=\"%s\" fltMacMode=\"%s\" disableWme=\"%s\" MaxAssoc = \"%d\" "
    [printD entry.wlHide, genOnOffState entry.wlAPIsolation, entry.wlFltMacMode,
      genOnOffState entry.wlDisableWme, printD entry.wlMaxAssoc] ++
  fprintf " wsc_mode=\"%s\" " [entry.wsc_mode] ++
  fprintf " wsc_config_state=\"%s\" " [entry.wsc_config_state] ++
  xmlWlSetAllSecurityAttr entry

def xmlSetWirelessMssidVarsAttr (name : Option (List UInt8)) (id : Nat)
    (value : Option (List WirelessMssidVar)) : List UInt8 :=
  match name, value with
  | some name, some entry =>
    if name = ascii "wlMssidVars" then
      fprintf "<%s tableSize=\"%d\">\n" [name, printD entry.length]
    else
      entry.flatMap (fun entry =>
        fprintf "<%s enblSsId=\"%d\" ssId=\"%s\""
          [wirelessObjs.getD id [], printD entry.wlEnblSsid, pszSsid entry.wlSsid] ++
        mssidEntry entry ++ fprintf "/>\n" []) ++
      if entry.length ≠ 0 then fprintf "</%s>\n" [wirelessObjs.getD (id - 1) []] else []
  | _, _ => []

/-! ## Reading the networks -/

namespace WirelessMssidVar

def webAttributes (e : WirelessMssidVar) : List (List UInt8 × List UInt8) :=
  [(ascii "wep", if strcasecmpEq e.wlWep "disabled" then ascii "disabled" else ascii "enabled")] ++
  [(ascii "auth", printD e.wlAuth)]

def encrytionAttributes (e : WirelessMssidVar) : List (List UInt8 × List UInt8) :=
  if strcasecmpEq e.wlWpa "tkip" then [(ascii "wpa", ascii "tkip")]
  else if strcasecmpEq e.wlWpa "aes" then [(ascii "wpa", ascii "aes")]
  else if strcasecmpEq e.wlWpa "tkip+aes" then [(ascii "wpa", ascii "tkip+aes")]
  else []

def tr069SecurityAttributes (e : WirelessMssidVar) : List (List UInt8 × List UInt8) :=
  [(ascii "tr69cBeaconType", Tr69c.beaconType e.tr69cBeaconType)] ++
  [(ascii "tr69cBasicEncryptionModes", Tr69c.basicEncryptionModes e.tr69cBasicEncryptionModes)] ++
  [(ascii "tr69cBasicAuthenticationMode",
    Tr69c.basicAuthenticationMode e.tr69cBasicAuthenticationMode)] ++
  [(ascii "tr69cWPAEncryptionModes", Tr69c.encryptionModes e.tr69cWPAEncryptionModes)] ++
  [(ascii "tr69cWPAAuthenticationMode",
    Tr69c.wpaAuthenticationMode e.tr69cWPAAuthenticationMode)] ++
  [(ascii "tr69cIEEE11iEncryptionModes", Tr69c.encryptionModes e.tr69cIEEE11iEncryptionModes)] ++
  [(ascii "tr69cIEEE11iAuthenticationMode",
    Tr69c.ieee11iAuthenticationMode e.tr69cIEEE11iAuthenticationMode)]

def keyName (front : String) (i : Fin 4) : List UInt8 := ascii front ++ printD (i.val + 1)

def encryptionStrengthAttributes (e : WirelessMssidVar) : List (List UInt8 × List UInt8) :=
  [(ascii "keyBit", if e.wlKeyBit = 1 then ascii "64-bit" else ascii "128-bit")] ++
  (List.finRange 4).flatMap (fun i => [(keyName "key64_" i, e.wlKeys64 i)]) ++
  [(ascii "key64Index", printD e.wlKeyIndex64)] ++
  (List.finRange 4).flatMap (fun i => [(keyName "key128_" i, e.wlKeys128 i)]) ++
  [(ascii "key128Index", printD e.wlKeyIndex128)]

def radiusServerAttributes (e : WirelessMssidVar) : List (List UInt8 × List UInt8) :=
  [(ascii "radiusServerIP", inetNtoa e.wlRadiusServerIP),
    (ascii "radiusServerPort", printD e.wlRadiusPort), (ascii "radiusServerKey", e.wlRadiusKey)]

def securityAttributes (e : WirelessMssidVar) : List (List UInt8 × List UInt8) :=
  [(ascii "authMode", e.wlAuthMode)] ++ e.radiusServerAttributes ++ e.webAttributes ++
  e.encryptionStrengthAttributes ++ [(ascii "wpaRekey", printD e.wlWpaGTKRekey)] ++
  [(ascii "wpakey", e.wlWpaPsk)] ++
  [(ascii "Preauthentication", genOnOffState e.wlPreauth),
    (ascii "ReauthTimeout", printD e.wlNetReauth)] ++
  e.encrytionAttributes ++ e.tr069SecurityAttributes

def nameAttributes (e : WirelessMssidVar) : List (List UInt8 × List UInt8) :=
  [(ascii "enblSsId", printD e.wlEnblSsid), (ascii "ssId", pszSsid e.wlSsid)]

def otherAttributes (e : WirelessMssidVar) : List (List UInt8 × List UInt8) :=
  [(ascii "hide", printD e.wlHide), (ascii "apIsolation", genOnOffState e.wlAPIsolation),
    (ascii "fltMacMode", e.wlFltMacMode), (ascii "disableWme", genOnOffState e.wlDisableWme),
    (ascii "MaxAssoc", printD e.wlMaxAssoc)] ++
  [(ascii "wsc_mode", e.wsc_mode)] ++ [(ascii "wsc_config_state", e.wsc_config_state)] ++
  e.securityAttributes

theorem reads_web (e : WirelessMssidVar) : Reads (xmlWlSetWebAttr e) e.webAttributes := by
  refine Reads.append ?_ (reads_fprintf [.of 'd' "auth"] [] (by decide +kernel) rfl ?_)
  · have either : Reads (fprintf " wep=\"disabled\"" []) [(ascii "wep", ascii "disabled")] ∧
        Reads (fprintf " wep=\"enabled\"" []) [(ascii "wep", ascii "enabled")] :=
      ⟨reads_literal (f := .of 's' "wep") (by decide +kernel) (by decide +kernel)
          (by decide +kernel),
        reads_literal (f := .of 's' "wep") (by decide +kernel) (by decide +kernel)
          (by decide +kernel)⟩
    split
    · exact either.1
    · exact either.2
  · simp [printD_unquoted]

theorem reads_encrytion (e : WirelessMssidVar) :
    Reads (xmlWlSetEncrytionAttr e) e.encrytionAttributes := by
  have plain : (Field.of 's' "wpa").Plain := by decide +kernel
  rw [xmlWlSetEncrytionAttr, encrytionAttributes]
  split
  · exact reads_literal (by decide +kernel) plain (by decide +kernel)
  split
  · exact reads_literal (by decide +kernel) plain (by decide +kernel)
  split
  · exact reads_literal (by decide +kernel) plain (by decide +kernel)
  · exact reads_nil

theorem reads_tr069Security (e : WirelessMssidVar) :
    Reads (xmlWlSetTr069SecurityAttr e) e.tr069SecurityAttributes := by
  have plain : (∀ i, 34 ∉ Tr69c.beaconType i) ∧ (∀ i, 34 ∉ Tr69c.basicEncryptionModes i) ∧
      (∀ i, 34 ∉ Tr69c.basicAuthenticationMode i) ∧ (∀ i, 34 ∉ Tr69c.encryptionModes i) ∧
      (∀ i, 34 ∉ Tr69c.wpaAuthenticationMode i) ∧ ∀ i, 34 ∉ Tr69c.ieee11iAuthenticationMode i := by
    decide +kernel
  obtain ⟨beacon, basicEncryption, basic, encryption, wpa, ieee11i⟩ := plain
  refine (((((Reads.append ?_ ?_).append ?_).append ?_).append ?_).append ?_).append ?_
  · exact reads_fprintf [.of 's' "tr69cBeaconType"] [] (by decide +kernel) rfl
      (forall_mem_singleton.mpr (beacon _))
  · exact reads_fprintf [.of 's' "tr69cBasicEncryptionModes"] [] (by decide +kernel) rfl
      (forall_mem_singleton.mpr (basicEncryption _))
  · exact reads_fprintf [.of 's' "tr69cBasicAuthenticationMode"] [] (by decide +kernel) rfl
      (forall_mem_singleton.mpr (basic _))
  · exact reads_fprintf [.of 's' "tr69cWPAEncryptionModes"] [] (by decide +kernel) rfl
      (forall_mem_singleton.mpr (encryption _))
  · exact reads_fprintf [.of 's' "tr69cWPAAuthenticationMode"] [] (by decide +kernel) rfl
      (forall_mem_singleton.mpr (wpa _))
  · exact reads_fprintf [.of 's' "tr69cIEEE11iEncryptionModes"] [] (by decide +kernel) rfl
      (forall_mem_singleton.mpr (encryption _))
  · exact reads_fprintf [.of 's' "tr69cIEEE11iAuthenticationMode"] [] (by decide +kernel) rfl
      (forall_mem_singleton.mpr (ieee11i _))

theorem genOnOffState_unquoted : ∀ i, 34 ∉ genOnOffState i := by
  decide

theorem inetNtoa_unquoted (addr : Fin 4 → UInt8) : 34 ∉ inetNtoa addr := by
  change 34 ∉ printD _ ++ 46 :: (printD _ ++ 46 :: (printD _ ++ 46 :: (printD _ ++ [])))
  simp [printD_unquoted]

structure Unquoted (e : WirelessMssidVar) : Prop where
  keys128 : ∀ i, 34 ∉ e.wlKeys128 i
  keys64 : ∀ i, 34 ∉ e.wlKeys64 i
  wpaPsk : 34 ∉ e.wlWpaPsk
  radiusKey : 34 ∉ e.wlRadiusKey
  authMode : 34 ∉ e.wlAuthMode
  fltMacMode : 34 ∉ e.wlFltMacMode
  wscMode : 34 ∉ e.wsc_mode
  wscConfigState : 34 ∉ e.wsc_config_state

variable {e : WirelessMssidVar}

section

variable (unquoted : e.Unquoted)
include unquoted

theorem Unquoted.reads_encryptionStrength :
    Reads (xmlWlSetEncryptionStrengthAttr e) e.encryptionStrengthAttributes := by
  have names : ∀ i : Fin 4, Field.Plain ⟨115, keyName "key64_" i, []⟩ ∧
      Field.Plain ⟨115, keyName "key128_" i, []⟩ := by
    decide +kernel
  have bits : (Field.of 's' "keyBit").Plain := by decide +kernel
  refine (((Reads.append ?_ ?_).append ?_).append ?_).append ?_
  · split
    · exact reads_literal (by decide +kernel) bits (by decide +kernel)
    · exact reads_literal (by decide +kernel) bits (by decide +kernel)
  · exact Reads.flatMap fun i _ => reads_numbered (by decide +kernel) (names i).1 reads_nil
      (unquoted.keys64 i)
  · exact reads_fprintf [.of 'd' "key64Index"] [] (by decide +kernel) rfl
      (by simp [printD_unquoted])
  · exact Reads.flatMap fun i _ => reads_numbered (by decide +kernel) (names i).2 reads_blank
      (unquoted.keys128 i)
  · exact reads_fprintf [.of 'd' "key128Index"] [] (by decide +kernel) rfl
      (by simp [printD_unquoted])

theorem Unquoted.reads_radiusServer :
    Reads (xmlWlSetRadiusServerAttr e) e.radiusServerAttributes := by
  refine reads_fprintf
    [.of 's' "radiusServerIP", .of 'd' "radiusServerPort", .of 's' "radiusServerKey"] []
    (by decide +kernel) rfl ?_
  simp [printD_unquoted, inetNtoa_unquoted, unquoted.radiusKey]

theorem Unquoted.reads_allSecurity : Reads (xmlWlSetAllSecurityAttr e) e.securityAttributes := by
  refine (((((((Reads.append ?_ unquoted.reads_radiusServer).append e.reads_web).append
    unquoted.reads_encryptionStrength).append ?_).append ?_).append ?_).append
    e.reads_encrytion).append e.reads_tr069Security
  · exact reads_fprintf [.of 's' "authMode"] [] (by decide +kernel) rfl
      (forall_mem_singleton.mpr unquoted.authMode)
  · exact reads_fprintf [.of 'd' "wpaRekey"] [] (by decide +kernel) rfl (by simp [printD_unquoted])
  · exact reads_fprintf [.of 's' "wpakey"] [32] (by decide +kernel) rfl
      (forall_mem_singleton.mpr unquoted.wpaPsk)
  · exact reads_fprintf [.of 's' "Preauthentication", .of 'd' "ReauthTimeout"] []
      (by decide +kernel) rfl (by simp [printD_unquoted, genOnOffState_unquoted])

theorem Unquoted.reads_mssidEntry : Reads (mssidEntry e) e.otherAttributes := by
  refine ((Reads.append ?_ ?_).append ?_).append unquoted.reads_allSecurity
  · refine reads_fprintf [.of 'd' "hide", .of 's' "apIsolation", .of 's' "fltMacMode",
      .of 's' "disableWme", ⟨100, ascii "MaxAssoc", [32]⟩] [32] (by decide +kernel) rfl ?_
    simp [printD_unquoted, genOnOffState_unquoted, unquoted.fltMacMode]
  · exact reads_fprintf [.of 's' "wsc_mode"] [32] (by decide +kernel) rfl
      (forall_mem_singleton.mpr unquoted.wscMode)
  · exact reads_fprintf [.of 's' "wsc_config_state"] [32] (by decide +kernel) rfl
      (forall_mem_singleton.mpr unquoted.wscConfigState)

end

theorem pszSsid_eq (string : 0 ∉ ssid) : pszSsid ssid = ssid.map encodeChar := by
  have goesOn : ∀ c ∈ ssid.map encodeChar, (c ≠ 0 : Bool) = true := by
    intro c mem
    obtain ⟨d, inside, rfl⟩ := mem_map.mp mem
    exact decide_eq_true (encodeChar_goesOn d (ne_of_mem_of_not_mem inside string))
  rw [pszSsid, encodeSsid_text string, takeWhile_append_of_pos goesOn,
    takeWhile_cons_of_neg (by simp), append_nil]

theorem pszSsid_unmarked (string : 0 ∉ ssid) : ∀ c ∈ pszSsid ssid, c ∉ marks := by
  rw [pszSsid_eq string]
  intro c mem
  obtain ⟨d, -, rfl⟩ := mem_map.mp mem
  exact encodeChar_not_mem d

theorem pszSsid_unquoted (string : 0 ∉ ssid) : 34 ∉ pszSsid ssid :=
  fun quote => pszSsid_unmarked string 34 quote (by decide)

def nameText (e : WirelessMssidVar) : List UInt8 :=
  fprintf " enblSsId=\"%d\" ssId=\"%s\"" [printD e.wlEnblSsid, pszSsid e.wlSsid]

theorem reads_name (e : WirelessMssidVar) : Reads e.nameText e.nameAttributes := by
  refine reads_fprintf [.of 'd' "enblSsId", .of 's' "ssId"] [] (by decide +kernel) rfl ?_
  simp [printD_unquoted, pszSsid_unquoted e.string]

def print (e : WirelessMssidVar) (rest : List UInt8) : List UInt8 :=
  60 :: (ascii "wlMssidEntry" ++ (e.nameText ++ (mssidEntry e ++ 47 :: 62 :: 10 :: rest)))

def callbacks (e : WirelessMssidVar) : List Event :=
  .tagBegin (ascii "wlMssidEntry") ::
    (e.nameAttributes ++ e.otherAttributes).flatMap events ++ [.tagEnd []]

theorem nxmlWrite_print (e : WirelessMssidVar) (rest : List UInt8) :
    nxmlWrite (fresh .beginTag) (e.print rest)
      = after (.tagBegin (ascii "wlMssidEntry") :: e.nameAttributes.flatMap events)
          (nxmlWrite (fresh .attrName) (mssidEntry e ++ 47 :: 62 :: 10 :: rest)) :=
  nxmlWrite_element (by decide) (by decide +kernel) rfl e.reads_name _

theorem Unquoted.nxmlWrite_print (unquoted : e.Unquoted) (rest : List UInt8) :
    nxmlWrite (fresh .beginTag) (e.print rest)
      = after e.callbacks (nxmlWrite (fresh .beginTag) rest) := by
  rw [e.nxmlWrite_print, unquoted.reads_mssidEntry, nxmlWrite_close,
    nxmlWrite_blank (by decide) (by decide), callbacks, flatMap_append]
  simp only [after, append_assoc, cons_append]

theorem nxmlWrite_prints {entries : List WirelessMssidVar}
    (unquoted : ∀ e ∈ entries, e.Unquoted) (rest : List UInt8) :
    nxmlWrite (fresh .beginTag) (entries.foldr print rest)
      = after (entries.flatMap callbacks) (nxmlWrite (fresh .beginTag) rest) := by
  induction entries with
  | nil => rfl
  | cons e entries ih =>
    rw [foldr_cons, (unquoted e mem_cons_self).nxmlWrite_print,
      ih fun e mem => unquoted e (mem_cons_of_mem _ mem), flatMap_cons]
    simp only [after, append_assoc]

end WirelessMssidVar

open WirelessMssidVar

theorem xmlSetWirelessMssidVarsAttr_entries (entries : List WirelessMssidVar) :
    xmlSetWirelessMssidVarsAttr (some (ascii "wlMssidEntry")) 3 (some entries)
      = entries.foldr print
          (if entries.length ≠ 0 then fprintf "</%s>\n" [ascii "wlMssidVars"] else []) := by
  have prints : ∀ rest, entries.flatMap (fun entry =>
      fprintf "<%s enblSsId=\"%d\" ssId=\"%s\""
        [wirelessObjs.getD 3 [], printD entry.wlEnblSsid, pszSsid entry.wlSsid] ++
      mssidEntry entry ++ fprintf "/>\n" []) ++ rest
        = entries.foldr print rest := by
    intro rest
    induction entries with
    | nil => rfl
    | cons e entries ih =>
      rw [flatMap_cons, append_assoc, ih, foldr_cons, print,
        nameText, append_assoc, append_assoc, fprintf_append,
        fprintf_append, fprintf_append]
      rfl
  exact prints _

/-- **The name of a network is printed without any character that has a meaning, is decoded to what
it was, and is read as one attribute, as it is printed.** -/
theorem ssid_reads {ssid : List UInt8} (string : 0 ∉ ssid)
    (plain : ∀ c ∈ ssid, ¬ (1 ≤ c ∧ c ≤ 6)) :
    ∃ encoded : List UInt8,
      (∀ rest, encodeSsid (ssid ++ 0 :: rest) = encoded ++ 0 :: rest) ∧ 0 ∉ encoded ∧
      (∀ c ∈ encoded, c ∉ marks) ∧
      (∀ rest, decodeSsid (encoded ++ 0 :: rest) = ssid ++ 0 :: rest) ∧
      ∀ (before : List WirelessMssidVar) (e : WirelessMssidVar) (behind : List WirelessMssidVar),
        (∀ b ∈ before, b.Unquoted) → e.wlSsid = ssid → ∃ others,
          (nxmlWrite nxmlOpen (xmlSetWirelessMssidVarsAttr (some (ascii "wlMssidEntry")) 3
              (some (before ++ e :: behind)))).1
            = before.flatMap WirelessMssidVar.callbacks ++
                [.tagBegin (ascii "wlMssidEntry"), .attributeBegin (ascii "enblSsId"),
                  .attributeValue (printD e.wlEnblSsid), .attributeBegin (ascii "ssId"),
                  .attributeValue encoded] ++ others := by
  have goesOn : 0 ∉ ssid.map encodeChar := by
    rw [mem_map]
    rintro ⟨c, mem, zero⟩
    exact encodeChar_goesOn c (ne_of_mem_of_not_mem mem string) zero
  refine ⟨ssid.map encodeChar, encodeSsid_text string, goesOn, ?_, ?_, ?_⟩
  · rw [← WirelessMssidVar.pszSsid_eq string]
    exact WirelessMssidVar.pszSsid_unmarked string
  · intro rest
    have back : (ssid.map encodeChar).map decodeChar = ssid := by
      rw [List.map_map]
      exact (map_congr_left fun c mem => decodeChar_encodeChar (plain c mem)).trans
        (map_id ssid)
    rw [decodeSsid_text goesOn, back]
  · intro before e behind unquoted named
    rw [xmlSetWirelessMssidVarsAttr_entries, foldr_append, foldr_cons]
    change ∃ others, (nxmlWrite (fresh .beginTag) _).1 = _
    rw [WirelessMssidVar.nxmlWrite_prints unquoted, e.nxmlWrite_print]
    subst named
    rw [← WirelessMssidVar.pszSsid_eq string]
    exact ⟨_, (append_assoc ..).symm⟩

theorem ssid_reads_quoted :
    ∃ encoded, encodeSsid (ascii " \"a\" =b/ " ++ [0]) = encoded ++ [0] ∧
      (∀ c ∈ encoded, c ∉ marks) ∧
      decodeSsid (encoded ++ [0]) = ascii " \"a\" =b/ " ++ [0] := by
  obtain ⟨encoded, encodes, -, unmarked, decodes, -⟩ :=
    @ssid_reads (ascii " \"a\" =b/ ") (by decide) (by decide +kernel)
  exact ⟨encoded, encodes [], unmarked, decodes []⟩

end EchoLife.Xml
