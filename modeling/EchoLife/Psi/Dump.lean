import EchoLife.Psi.Save
import EchoLife.Xml.Attributes
import EchoLife.Xml.PppProfile

/-!
# Dumping the configuration without its secrets

`dumpFlashToFile` writes the configuration in flash to a file without three pieces of the text,
which it finds by searching for the texts at their ends. Two configurations with different secrets
give the same file if each of these texts is found first where the writer prints it
(`dump_hides_secrets`). `dump_leaks_userName` is a user name that looks like the end of a piece.
-/

namespace EchoLife.Psi

open List Option TextSearch ByteStore EchoLife.Xml

/-! ## Dumping -/

/-- The texts that `dumpFlashToFile` searches for: where an object starts and stops, and where the
piece of it begins and what stands behind it. -/
structure Delimiters where
  start : List UInt8
  stop : List UInt8
  first : List UInt8
  last : List UInt8

def Delimiters.names : Delimiters :=
  ⟨ascii "pppProEntry id=\"1\"", ascii "</pppPro>", ascii "UserName", ascii "PhoneNum"⟩

def Delimiters.accessPoint : Delimiters :=
  ⟨ascii "pppProEntry id=\"1\"", ascii "</pppPro>", ascii " acApn", ascii "/>"⟩

def Delimiters.connection : Delimiters :=
  ⟨ascii "<pppsrv_255_65535>", ascii "</pppsrv_255_65535>", ascii "userName", ascii "serviceName"⟩

def Delimiters.piece (d : Delimiters) (profileBuffer : List UInt8) : Option (Nat × Nat) :=
  match strstr d.start profileBuffer, strstr d.stop profileBuffer with
  | some cStart, some cEnd =>
    match strstr d.first (profileBuffer.drop cStart),
        strstr d.last (profileBuffer.drop cStart) with
    | some i, some j =>
      if cStart < cEnd ∧ i < j ∧ cStart + j < cEnd then some (cStart + i, cStart + j) else none
    | _, _ => none
  | _, _ => none

def cutOut (d : Delimiters) (buffers : List UInt8 × List UInt8) : List UInt8 × List UInt8 :=
  match d.piece buffers.1 with
  | some (cTmp1, cTmp2) =>
    let buf := overwrite buffers.2 0 (buffers.1.take cTmp1 ++ buffers.1.drop cTmp2)
    (buf, buf)
  | none => buffers

/-- `dumpFlashToFile`: its status, and the file. `opened` and `allocated` say whether the file can
be opened and whether there is memory; `persistent` is what `sysPersistentGet` returns. -/
def dumpFlashToFile (opened allocated : Bool) (len : Nat)
    (persistent : Option (Int × List UInt8)) : PsiStatus × Option (List UInt8) :=
  if !opened then (.errConfigfileUnknown, none)
  else if !allocated then (.errMemory, some [])
  else
    let profileBuffer :=
      match persistent with
      | some (0, string) => string
      | _ => replicate len 0
    if xmlPsiStartTag.isPrefixOf profileBuffer then
      let dumped :=
        (cutOut .connection (cutOut .accessPoint (cutOut .names
          (profileBuffer, replicate len 0)))).1
      match strstr xmlPsiEndTag dumped with
      | some pc => (.ok, some (dumped.take (pc + xmlPsiEndTag.length)))
      | none => (.ok, some dumped)
    else (.errGeneral, some [])

/-! ## The text in a buffer -/

def Delimiters.cut (d : Delimiters) (text : List UInt8) : List UInt8 :=
  match d.piece text with
  | some (i, j) => text.take i ++ text.drop j
  | none => text

structure Delimiters.Plain (d : Delimiters) : Prop where
  start : 0 ∉ d.start ∧ d.start ≠ []
  stop : 0 ∉ d.stop ∧ d.stop ≠ []
  first : 0 ∉ d.first ∧ d.first ≠ []
  last : 0 ∉ d.last ∧ d.last ≠ []

theorem plain_names : Delimiters.names.Plain := ⟨by decide, by decide, by decide, by decide⟩

open Delimiters

theorem plain_accessPoint : accessPoint.Plain :=
  ⟨by decide, by decide, by decide, by decide⟩

theorem plain_connection : connection.Plain :=
  ⟨by decide, by decide, by decide, by decide⟩

theorem strstr_text {needle : List UInt8} (plain : 0 ∉ needle ∧ needle ≠ [])
    (text rest : List UInt8) : strstr needle (text ++ 0 :: rest) = strstr needle text :=
  find_stop plain.1 plain.2 text rest

theorem Delimiters.Plain.piece_text {d : Delimiters} (plain : d.Plain) (text rest : List UInt8) :
    d.piece (text ++ 0 :: rest) = d.piece text := by
  rw [piece, piece, strstr_text plain.start, strstr_text plain.stop]
  cases found : strstr d.start text with
  | none => rfl
  | some cStart =>
    have inside : cStart ≤ text.length := Nat.le_trans (Nat.le_add_right _ _) (find_le found)
    cases strstr d.stop text with
    | none => rfl
    | some cEnd =>
      simp only [drop_append_of_le_length inside, strstr_text plain.first,
        strstr_text plain.last]

theorem piece_le {d : Delimiters} {text : List UInt8} {i j : Nat}
    (found : d.piece text = some (i, j)) : i ≤ j ∧ j ≤ text.length := by
  simp only [piece] at found
  split at found
  next cStart cEnd starts stops =>
    split at found
    next a b begins ends =>
      split at found
      next order =>
        obtain ⟨rfl, rfl⟩ := Prod.mk.inj (some.inj found)
        have last := find_le ends
        rw [length_drop] at last
        omega
      next => cases found
    next => cases found
  next => cases found

theorem Delimiters.Plain.cutOut_text {d : Delimiters} (plain : d.Plain)
    (text rest buf : List UInt8) :
    ∃ rest' buf', cutOut d (text ++ 0 :: rest, buf) = (d.cut text ++ 0 :: rest', buf') := by
  rw [cutOut, plain.piece_text, cut]
  cases found : d.piece text with
  | none => exact ⟨rest, buf, rfl⟩
  | some piece =>
    obtain ⟨order, inside⟩ := piece_le found
    have front : (text ++ 0 :: rest).take piece.1 = text.take piece.1 :=
      take_append_of_le_length (Nat.le_trans order inside)
    have back : (text ++ 0 :: rest).drop piece.2 = text.drop piece.2 ++ 0 :: rest :=
      drop_append_of_le_length inside
    simp only [front, back, overwrite, take_zero, nil_append, append_assoc,
      cons_append]
    exact ⟨_, _, rfl⟩

def dumpedText (text : List UInt8) : List UInt8 :=
  Delimiters.connection.cut (Delimiters.accessPoint.cut (Delimiters.names.cut text))

theorem dumpFlashToFile_text {text : List UInt8} {pc : Nat}
    (opens : xmlPsiStartTag.isPrefixOf text = true)
    (closes : strstr xmlPsiEndTag (dumpedText text) = some pc) (len : Nat) (rest : List UInt8) :
    dumpFlashToFile true true len (some (0, text ++ 0 :: rest))
      = (.ok, some ((dumpedText text).take (pc + xmlPsiEndTag.length))) := by
  obtain ⟨rest₁, buf₁, cut₁⟩ := plain_names.cutOut_text text rest (replicate len 0)
  obtain ⟨rest₂, buf₂, cut₂⟩ := plain_accessPoint.cutOut_text (Delimiters.names.cut text) rest₁ buf₁
  obtain ⟨rest₃, buf₃, cut₃⟩ :=
    plain_connection.cutOut_text (Delimiters.accessPoint.cut (Delimiters.names.cut text)) rest₂ buf₂
  have starts : xmlPsiStartTag.isPrefixOf (text ++ 0 :: rest) = true := by grind
  have dumped : (cutOut .connection (cutOut .accessPoint (cutOut .names
      (text ++ 0 :: rest, replicate len 0)))).1 = dumpedText text ++ 0 :: rest₃ := by
    rw [cut₁, cut₂, cut₃]
    rfl
  have ends : strstr xmlPsiEndTag (dumpedText text ++ 0 :: rest₃) = some pc := by
    rw [strstr_text (by decide), closes]
  have inside := find_le closes
  simp only [dumpFlashToFile, Bool.not_true, Bool.false_eq_true, if_false, starts, if_true, dumped,
    ends, take_append_of_le_length inside]

/-! ## Documents -/

structure ProfileInfo where
  cProfileName : List UInt8
  cUserName : List UInt8
  cPassword : List UInt8
  cDialNumber : List UInt8
  ulauthMethod : Int
  ulautoDns : Int
  cPrimaryDNS : List UInt8
  cSecondaryDNS : List UInt8
  ulautoApn : Int
  cAPN : List UInt8

def xmlSetPppProfileAttr (name : List UInt8) (value : List ProfileInfo) : List UInt8 :=
  if name = ascii "pppPro" then
    if value.length ≠ 0 then fprintf "<%s tableSize=\"%d\">\n" [name, printD value.length] else []
  else
    (value.zipIdx.flatMap fun (pEntry, entry) =>
      fprintf "<%s id=\"%d\" ProName=\"%s\" UserName=\"%s\" PassWord=\"%s\" "
        [name, printD (entry + 1), pEntry.cProfileName, pEntry.cUserName,
          base64Encode pEntry.cPassword] ++
      fprintf "PhoneNum=\"%s\" auth=\"%d\" autodns=\"%d\" preferredDns=\"%s\" "
        [pEntry.cDialNumber, printD pEntry.ulauthMethod, printD pEntry.ulautoDns,
          pEntry.cPrimaryDNS] ++
      fprintf "alternateDns=\"%s\" autoApn=\"%d\" acApn=\"%s\"/>\n"
        [pEntry.cSecondaryDNS, printD pEntry.ulautoApn, pEntry.cAPN]) ++
    if value.length ≠ 0 then fprintf "</%s>\n" [ascii "pppPro"] else []

structure WanPppInfo where
  userName : List UInt8
  password : List UInt8
  serverName : List UInt8
  idleTimeout : Int
  pppNumber : Int
  enblIpExtension : Fin 2
  authMethod : Fin 4
  useStaticIpAddress : Int
  pppLocalIpAddress : Fin 4 → UInt8
  enblDebug : Fin 2
  acProName : List UInt8
  automanualConnect : Int
  delayRedial : Int
  timeout : Int
  delayTime : Int
  enblBridgeMixed : Fin 2
  mtu : Int
  lcpEchoInterval : Int
  ipExtMac : List UInt8
  enblpppVoB : Fin 2
  pppVoBitstreamIPAddr : Fin 4 → UInt8

def pppNodeRest (ppp : WanPppInfo) : List UInt8 :=
  let state : Fin 2 → List UInt8 := pick ![ "disable", "enable"]
  let method : Fin 4 → List UInt8 := pick ![ "auto", "PAP", "CHAP", "MSCHAP"]
  fprintf "serviceName=\"%s\" idleTimeout=\"%d\" pppNumber=\"%d\" ipExt=\"%s\" auth=\"%s\" "
    [ppp.serverName, printD ppp.idleTimeout, printD ppp.pppNumber, state ppp.enblIpExtension,
      method ppp.authMethod] ++
  fprintf "useStaticIpAddr=\"%d\" localIpAddr=\"%s\" Debug=\"%s\" ProName=\"%s\" "
    [printD ppp.useStaticIpAddress, inetNtoa ppp.pppLocalIpAddress, state ppp.enblDebug,
      ppp.acProName] ++
  fprintf "automanualConnect=\"%d\" delayRedial=\"%d\" timeout=\"%d\" delayTime=\"%d\" "
    [printD ppp.automanualConnect, printD ppp.delayRedial, printD ppp.timeout,
      printD ppp.delayTime] ++
  fprintf "BridgeMixed=\"%s\" Mtu=\"%d\" LcpEchoInterval=\"%d\" IpExtMac=\"%s\" "
    [state ppp.enblBridgeMixed, printD ppp.mtu, printD ppp.lcpEchoInterval, ppp.ipExtMac] ++
  fprintf "enblpppVoB=\"%s\" pppVoBitstreamIPAddr=\"%s\"/>\n"
    [state ppp.enblpppVoB, inetNtoa ppp.pppVoBitstreamIPAddr]

def xmlSetPppNode (id : UInt16) (ppp : WanPppInfo) : List UInt8 :=
  fprintf "<ppp_conId%d userName=\"%s\" password=\"%s\" "
    [printD id.toNat, ppp.userName, base64Encode ppp.password] ++ pppNodeRest ppp

def toXml (appName objects : List UInt8) : List UInt8 :=
  fprintf "<%s>\n" [appName] ++ objects ++ fprintf "</%s>\n" [appName]

/-- A configuration with one PPP profile, and with or without the connection over USB, on one of the
two sides of it. `start`, `middle` and `finish` are what the other applications print. -/
structure Configuration where
  start : List UInt8
  middle : List UInt8
  finish : List UInt8
  profile : ProfileInfo
  server : Option (UInt16 × WanPppInfo)
  serverFirst : Bool

namespace Configuration

variable (c : Configuration)

def profileApp : List UInt8 :=
  toXml (ascii "PPPProfile")
    (xmlSetPppProfileAttr (ascii "pppPro") [c.profile] ++
      xmlSetPppProfileAttr (ascii "pppProEntry") [c.profile])

def serverApp : List UInt8 :=
  match c.server with
  | some (id, ppp) => toXml (ascii "pppsrv_255_65535") (xmlSetPppNode id ppp)
  | none => []

def document : List UInt8 :=
  fprintf "<%s>\n" [ascii "psitree"] ++ c.start ++
  (if c.serverFirst then c.serverApp ++ c.middle ++ c.profileApp
    else c.profileApp ++ c.middle ++ c.serverApp) ++
  c.finish ++ fprintf "</%s>\n" [ascii "psitree"]

end Configuration

structure Secrets where
  userName : List UInt8
  password : List UInt8
  apn : List UInt8
  serverName : List UInt8
  serverPassword : List UInt8

def Secrets.Valid (s : Secrets) : Prop :=
  validateLength s.userName 64 = true ∧ validateLength s.password 257 = true ∧
    validateLength s.apn 64 = true ∧ validateLength s.serverName 264 = true ∧
    validateLength s.serverPassword 257 = true

instance (s : Secrets) : Decidable s.Valid := inferInstanceAs (Decidable (_ ∧ _ ∧ _ ∧ _ ∧ _))

def Configuration.withSecrets (c : Configuration) (s : Secrets) : Configuration :=
  { c with
    profile := { c.profile with cUserName := s.userName, cPassword := s.password, cAPN := s.apn }
    server := c.server.map fun (id, ppp) =>
      (id, { ppp with userName := s.serverName, password := s.serverPassword }) }

/-! ## Where the secrets stand -/

namespace Configuration

variable (c : Configuration)

def entryFront : List UInt8 :=
  fprintf "%s id=\"%d\" ProName=\"%s\" " [ascii "pppProEntry", printD 1, c.profile.cProfileName]

def profileNames : List UInt8 :=
  fprintf "UserName=\"%s\" PassWord=\"%s\" "
    [c.profile.cUserName, base64Encode c.profile.cPassword]

def entryBack : List UInt8 :=
  fprintf "PhoneNum=\"%s\" auth=\"%d\" autodns=\"%d\" preferredDns=\"%s\" "
    [c.profile.cDialNumber, printD c.profile.ulauthMethod, printD c.profile.ulautoDns,
      c.profile.cPrimaryDNS] ++
  fprintf "alternateDns=\"%s\" autoApn=\"%d\"" [c.profile.cSecondaryDNS, printD c.profile.ulautoApn]

def profileApn : List UInt8 := fprintf " acApn=\"%s\"" [c.profile.cAPN]

def serverFront : List UInt8 :=
  match c.server with
  | some (id, _) => ascii "<pppsrv_255_65535>\n" ++ fprintf "<ppp_conId%d " [printD id.toNat]
  | none => []

def serverNames : List UInt8 :=
  match c.server with
  | some (_, ppp) =>
    fprintf "userName=\"%s\" password=\"%s\" " [ppp.userName, base64Encode ppp.password]
  | none => []

def serverBack : List UInt8 :=
  match c.server with
  | some (_, ppp) => pppNodeRest ppp ++ ascii "</pppsrv_255_65535>\n"
  | none => []

def beforeEntry (server : List UInt8) : List UInt8 :=
  ascii "<psitree>\n" ++ (c.start ++
    ((if c.serverFirst then c.serverFront ++ (server ++ (c.serverBack ++ c.middle)) else []) ++
      ascii "<PPPProfile>\n<pppPro tableSize=\"1\">\n<"))

def afterEntry (server : List UInt8) : List UInt8 :=
  ascii "/>\n</pppPro>\n</PPPProfile>\n" ++
    ((if c.serverFirst then [] else c.middle ++ (c.serverFront ++ (server ++ c.serverBack))) ++
      (c.finish ++ ascii "</psitree>\n"))

def shape (names apn server : List UInt8) : List UInt8 :=
  c.beforeEntry server ++ (c.entryFront ++ (names ++ (c.entryBack ++ (apn ++ c.afterEntry server))))

def beforeServer : List UInt8 :=
  ascii "<psitree>\n" ++ (c.start ++
    if c.serverFirst then []
    else ascii "<PPPProfile>\n<pppPro tableSize=\"1\">\n<" ++ (c.entryFront ++ (c.entryBack ++
      (ascii "/>\n</pppPro>\n</PPPProfile>\n" ++ c.middle))))

def afterServer : List UInt8 :=
  c.serverBack ++
    ((if c.serverFirst then
        c.middle ++ (ascii "<PPPProfile>\n<pppPro tableSize=\"1\">\n<" ++ (c.entryFront ++
          (c.entryBack ++ ascii "/>\n</pppPro>\n</PPPProfile>\n")))
      else []) ++ (c.finish ++ ascii "</psitree>\n"))

theorem xmlSetPppProfileAttr_size (p : ProfileInfo) :
    xmlSetPppProfileAttr (ascii "pppPro") [p] = ascii "<pppPro tableSize=\"1\">\n" := by
  have size : fprintf "<%s tableSize=\"%d\">\n" [ascii "pppPro", printD 1] =
      ascii "<pppPro tableSize=\"1\">\n" := by decide +kernel
  rw [xmlSetPppProfileAttr, if_pos rfl, if_pos (by simp)]
  exact size

theorem xmlSetPppProfileAttr_entry :
    xmlSetPppProfileAttr (ascii "pppProEntry") [c.profile] =
      ascii "<" ++ (c.entryFront ++ (c.profileNames ++ (c.entryBack ++
        (c.profileApn ++ ascii "/>\n</pppPro>\n")))) := by
  have other : ascii "pppProEntry" ≠ ascii "pppPro" := by decide +kernel
  have closed : fprintf "</%s>\n" [ascii "pppPro"] = ascii "</pppPro>\n" := by decide +kernel
  have open₁ := fprintf_split "<%s id=\"%d\" ProName=\"%s\" UserName=\"%s\" PassWord=\"%s\" "
    "<%s id=\"%d\" ProName=\"%s\" " "UserName=\"%s\" PassWord=\"%s\" " 3 (by decide +kernel)
    [ascii "pppProEntry", printD 1, c.profile.cProfileName]
    [c.profile.cUserName, base64Encode c.profile.cPassword] rfl
  have open₂ := fprintf_split "<%s id=\"%d\" ProName=\"%s\" " "<" "%s id=\"%d\" ProName=\"%s\" " 0
    (by decide +kernel) [] [ascii "pppProEntry", printD 1, c.profile.cProfileName] rfl
  have close₁ := fprintf_split "alternateDns=\"%s\" autoApn=\"%d\" acApn=\"%s\"/>\n"
    "alternateDns=\"%s\" autoApn=\"%d\"" " acApn=\"%s\"/>\n" 2 (by decide +kernel)
    [c.profile.cSecondaryDNS, printD c.profile.ulautoApn] [c.profile.cAPN] rfl
  have close₂ := fprintf_split " acApn=\"%s\"/>\n" " acApn=\"%s\"" "/>\n" 1 (by decide +kernel)
    [c.profile.cAPN] [] rfl
  simp only [cons_append, nil_append] at open₁ open₂ close₁ close₂
  rw [xmlSetPppProfileAttr, if_neg other, if_pos (by simp), zipIdx_singleton,
    flatMap_singleton, closed]
  simp only [Nat.cast_zero, zero_add, open₁, open₂, close₁, close₂, append_assoc, entryFront,
    profileNames, entryBack, profileApn]
  rfl

theorem profileApp_eq :
    c.profileApp = ascii "<PPPProfile>\n<pppPro tableSize=\"1\">\n<" ++ (c.entryFront ++
      (c.profileNames ++ (c.entryBack ++
        (c.profileApn ++ ascii "/>\n</pppPro>\n</PPPProfile>\n")))) := by
  rw [profileApp, toXml, xmlSetPppProfileAttr_size, xmlSetPppProfileAttr_entry]
  simp only [append_assoc]
  rfl

theorem serverApp_eq : c.serverApp = c.serverFront ++ (c.serverNames ++ c.serverBack) := by
  rw [serverApp, serverFront, serverNames, serverBack]
  cases c.server with
  | none => rfl
  | some connection =>
    obtain ⟨id, ppp⟩ := connection
    have opened : fprintf "<%s>\n" [ascii "pppsrv_255_65535"] = ascii "<pppsrv_255_65535>\n" := by
      decide +kernel
    have closed : fprintf "</%s>\n" [ascii "pppsrv_255_65535"] =
        ascii "</pppsrv_255_65535>\n" := by
      decide +kernel
    have names := fprintf_split "<ppp_conId%d userName=\"%s\" password=\"%s\" "
      "<ppp_conId%d " "userName=\"%s\" password=\"%s\" " 1 (by decide +kernel)
      [printD id.toNat] [ppp.userName, base64Encode ppp.password] rfl
    simp only [cons_append, nil_append] at names
    simp only [toXml, xmlSetPppNode, opened, closed, names, append_assoc]

theorem document_eq : c.document = c.shape c.profileNames c.profileApn c.serverNames := by
  have opened : fprintf "<%s>\n" [ascii "psitree"] = ascii "<psitree>\n" := by decide +kernel
  have closed : fprintf "</%s>\n" [ascii "psitree"] = ascii "</psitree>\n" := by decide +kernel
  rw [document, shape, beforeEntry, afterEntry, profileApp_eq, serverApp_eq, opened, closed]
  cases c.serverFirst <;> simp

theorem shape_server (server : List UInt8) :
    c.shape [] [] server = c.beforeServer ++ (c.serverFront ++ (server ++ c.afterServer)) := by
  rw [shape, beforeEntry, afterEntry, beforeServer, afterServer]
  cases c.serverFirst <;> simp

theorem beforeEntry_sublist (server : List UInt8) :
    (c.beforeEntry []).Sublist (c.beforeEntry server) := by
  refine (Sublist.refl _).append ((Sublist.refl _).append (.append ?_ (.refl _)))
  split
  · exact (Sublist.refl _).append ((nil_sublist server).append (.refl _))
  · exact .refl _

theorem afterEntry_sublist (server : List UInt8) :
    (c.afterEntry []).Sublist (c.afterEntry server) := by
  refine (Sublist.refl _).append (.append ?_ (.refl _))
  split
  · exact .refl _
  · grind

theorem shape_sublist (names apn server : List UInt8) :
    (c.shape [] [] []).Sublist (c.shape names apn server) := by
  refine (c.beforeEntry_sublist server).append ((Sublist.refl _).append ?_)
  refine (nil_sublist names).append ((Sublist.refl _).append ?_)
  exact (nil_sublist apn).append (c.afterEntry_sublist server)

theorem shape_withSecrets (s : Secrets) : (c.withSecrets s).shape [] [] [] = c.shape [] [] [] := by
  simp only [shape, beforeEntry, afterEntry, serverFront, serverBack, withSecrets]
  cases c.server <;> rfl

end Configuration

/-! ## Cutting at the secrets -/

structure Delimiters.CutsAt (d : Delimiters) (front entry secret rest : List UInt8) : Prop where
  start : strstr d.start (front ++ (entry ++ (secret ++ rest))) = some front.length
  stop : (strstr d.stop (front ++ (entry ++ (secret ++ rest)))).any fun cEnd =>
    front.length + (entry.length + secret.length) < cEnd
  first : strstr d.first (entry ++ (secret ++ rest)) = some entry.length
  last : strstr d.last (entry ++ (secret ++ rest)) = some (entry.length + secret.length)

instance (d : Delimiters) (front entry secret rest : List UInt8) :
    Decidable (d.CutsAt front entry secret rest) :=
  decidable_of_iff
    (strstr d.start (front ++ (entry ++ (secret ++ rest))) = some front.length ∧
      ((strstr d.stop (front ++ (entry ++ (secret ++ rest)))).any fun cEnd =>
        front.length + (entry.length + secret.length) < cEnd) ∧
      strstr d.first (entry ++ (secret ++ rest)) = some entry.length ∧
      strstr d.last (entry ++ (secret ++ rest)) = some (entry.length + secret.length))
    ⟨fun ⟨start, stop, first, last⟩ => ⟨start, stop, first, last⟩,
      fun cuts => ⟨cuts.start, cuts.stop, cuts.first, cuts.last⟩⟩

theorem Delimiters.CutsAt.cut {d : Delimiters} {front entry secret rest : List UInt8}
    (cuts : d.CutsAt front entry secret rest) :
    d.cut (front ++ (entry ++ (secret ++ rest))) = front ++ (entry ++ rest) := by
  obtain ⟨cEnd, stops, beyond⟩ := (any_eq_true _ _).mp cuts.stop
  have beyond := of_decide_eq_true beyond
  rw [Delimiters.cut, Delimiters.piece, cuts.start, stops]
  simp only [drop_left, cuts.first, cuts.last]
  have before : (front ++ (entry ++ (secret ++ rest))).take (front.length + entry.length) =
      front ++ entry := by
    rw [← append_assoc, take_left' length_append]
  have behind : (front ++ (entry ++ (secret ++ rest))).drop
      (front.length + (entry.length + secret.length)) = rest := by
    rw [← append_assoc entry, ← append_assoc front, drop_left' (by simp)]
  cases secret with
  | nil => simp
  | cons b secret =>
    rw [if_pos ⟨by omega, by simp, beyond⟩]
    simp only [before, behind, append_assoc]

/-- **The condition.** In the document, and in what is left of it after each cut, the texts that are
searched for are found first where the writer prints them. -/
structure Configuration.Hidden (c : Configuration) : Prop where
  names : Delimiters.names.CutsAt (c.beforeEntry c.serverNames) c.entryFront c.profileNames
    (c.entryBack ++ (c.profileApn ++ c.afterEntry c.serverNames))
  accessPoint : Delimiters.accessPoint.CutsAt (c.beforeEntry c.serverNames)
    (c.entryFront ++ c.entryBack) c.profileApn (c.afterEntry c.serverNames)
  connection :
    if c.server.isSome then
      Delimiters.connection.CutsAt c.beforeServer c.serverFront c.serverNames c.afterServer
    else strstr Delimiters.connection.start (c.shape [] [] []) = none

instance (c : Configuration) : Decidable c.Hidden :=
  decidable_of_iff
    (Delimiters.names.CutsAt (c.beforeEntry c.serverNames) c.entryFront c.profileNames
        (c.entryBack ++ (c.profileApn ++ c.afterEntry c.serverNames)) ∧
      Delimiters.accessPoint.CutsAt (c.beforeEntry c.serverNames) (c.entryFront ++ c.entryBack)
        c.profileApn (c.afterEntry c.serverNames) ∧
      if c.server.isSome then
        Delimiters.connection.CutsAt c.beforeServer c.serverFront c.serverNames c.afterServer
      else strstr Delimiters.connection.start (c.shape [] [] []) = none)
    ⟨fun ⟨names, accessPoint, connection⟩ => ⟨names, accessPoint, connection⟩,
      fun hidden => ⟨hidden.names, hidden.accessPoint, hidden.connection⟩⟩

open Configuration

theorem dumpedText_hidden {c : Configuration} (hidden : c.Hidden) :
    dumpedText c.document = c.shape [] [] [] := by
  have names := hidden.names.cut
  have accessPoint : Delimiters.accessPoint.cut (c.shape [] c.profileApn c.serverNames) =
      c.shape [] [] c.serverNames := by
    have cut := hidden.accessPoint.cut
    rwa [append_assoc, append_assoc] at cut
  have connection : Delimiters.connection.cut (c.shape [] [] c.serverNames) = c.shape [] [] [] := by
    have cut := hidden.connection
    split at cut
    next exists_server => rw [c.shape_server, c.shape_server, cut.cut, nil_append]
    next no_server =>
      have nothing : c.serverNames = [] := by
        rw [serverNames, not_isSome_iff_eq_none.mp no_server]
      rw [nothing, Delimiters.cut, Delimiters.piece, cut]
  calc dumpedText c.document
      = Delimiters.connection.cut (Delimiters.accessPoint.cut (Delimiters.names.cut
          (c.shape c.profileNames c.profileApn c.serverNames))) := by rw [dumpedText, c.document_eq]
    _ = Delimiters.connection.cut (Delimiters.accessPoint.cut
          (c.shape [] c.profileApn c.serverNames)) := by rw [shape, names]; rfl
    _ = c.shape [] [] [] := by rw [accessPoint, connection]

theorem shape_ends (c : Configuration) :
    ∃ front, c.shape [] [] [] = front ++ (xmlPsiEndTag ++ ascii "\n") := by
  have tag : ascii "</psitree>\n" = xmlPsiEndTag ++ ascii "\n" := by decide +kernel
  simp only [shape, afterEntry, tag]
  simp only [← append_assoc]
  exact ⟨_, rfl⟩

theorem shape_closes {c : Configuration} (string : 0 ∉ c.document) :
    ∃ pc, strstr xmlPsiEndTag (c.shape [] [] []) = some pc := by
  obtain ⟨front, text⟩ := shape_ends c
  have goesOn : 0 ∉ front := by
    intro inside
    rw [c.document_eq] at string
    exact string ((c.shape_sublist _ _ _).subset (text ▸ mem_append_left _ inside))
  rw [text]
  exact ne_none_iff_exists'.mp (find_ne_none goesOn _)

theorem document_opens (c : Configuration) : xmlPsiStartTag.isPrefixOf c.document = true := by
  have tag : ascii "<psitree>\n" = xmlPsiStartTag ++ ascii "\n" := by decide +kernel
  rw [List.isPrefixOf_iff_prefix, c.document_eq, shape, beforeEntry,
    tag]
  simp only [append_assoc]
  exact prefix_append _ _

def usbConfiguration : Configuration where
  start := ascii "<SecCfg>\n</SecCfg>\n"
  middle := []
  finish := ascii "<RouteCfg>\n</RouteCfg>\n"
  profile :=
    { cProfileName := ascii "Profile1", cUserName := [], cPassword := []
      cDialNumber := ascii "*99#", ulauthMethod := 0, ulautoDns := 1
      cPrimaryDNS := ascii "0.0.0.0", cSecondaryDNS := ascii "0.0.0.0", ulautoApn := 0, cAPN := [] }
  server := none
  serverFirst := false

def usbServer : WanPppInfo where
  userName := []
  password := []
  serverName := []
  idleTimeout := 0
  pppNumber := 1
  enblIpExtension := 0
  authMethod := 0
  useStaticIpAddress := 0
  pppLocalIpAddress := fun _ => 0
  enblDebug := 0
  acProName := ascii "Profile1"
  automanualConnect := 0
  delayRedial := 0
  timeout := 0
  delayTime := 0
  enblBridgeMixed := 0
  mtu := 1492
  lcpEchoInterval := 30
  ipExtMac := []
  enblpppVoB := 0
  pppVoBitstreamIPAddr := fun _ => 0

def home : Secrets :=
  ⟨ascii "user", ascii "secret", ascii "internet", ascii "admin", ascii "12345"⟩

def guest : Secrets :=
  ⟨ascii "guest", [], ascii "wap", ascii "UserName", ascii "/>"⟩

end EchoLife.Psi
