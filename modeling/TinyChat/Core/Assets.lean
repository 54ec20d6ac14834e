import TinyChat.Core.RequestHandler

/-! Which files `handle_assets` opens: the remainder of the target is checked for `..`,
but not for the leading separator that makes `doc_root / asset_path` forget the root. -/
namespace TinyChat.Core

open TinyChat.Effect TinyChat.Text
open Program

/-- Any file system, in which only paths under the root may be opened. -/
def opensUnder (docRoot : String) : Contract Op Op.Result Unit where
  permitted _ op := ∀ path, op = .openFile path → Under docRoot.toList path.toList
  expected _ _ _ _ := True

/-- The task opens no file outside of the root, and its behaviour is defined. -/
def StaysUnder (docRoot : String) (task : WorkerTask Response) : Prop :=
  task.Meets (opensUnder docRoot) (fun _ outcome => outcome ≠ .undefined) ()

variable {service : Service} {ctx : ReqContext} {assetPath : List Char}

theorem answerAsset_staysUnder {fullPath : List Char} (opened : OpenResult) :
    StaysUnder service.docRoot (answerAsset service ctx assetPath fullPath opened) := by
  cases opened <;> exact nofun

theorem openFile_staysUnder_iff {docRoot path : String} {next : OpenResult → WorkerTask Response}
    (later : ∀ opened, StaysUnder docRoot (next opened)) :
    StaysUnder docRoot (openFile path >>= next) ↔ Under docRoot.toList path.toList := by
  refine (meets_bind.trans meets_perform).trans ⟨fun holds => holds.1 path rfl, fun under => ?_⟩
  refine ⟨?_, fun opened _ _ => later opened, fun _ _ _ => nofun⟩
  rintro other same
  cases same
  exact under

theorem serveAsset_staysUnder_iff : StaysUnder service.docRoot (serveAsset service ctx assetPath) ↔
    assetPath = [] ∨ ['.', '.'] <:+: assetPath ∨ isAbsolute assetPath = false ∨
      Under service.docRoot.toList assetPath := by
  unfold serveAsset
  by_cases refused : assetPath = [] ∨ ['.', '.'] <:+: assetPath
  · rw [if_pos refused]
    exact iff_of_true nofun (or_assoc.mp (.inl refused))
  · obtain ⟨nonempty, noDots⟩ := not_or.mp refused
    rw [if_neg refused, openFile_staysUnder_iff fun opened => answerAsset_staysUnder opened,
      String.toList_ofList]
    simp only [nonempty, noDots, false_or]
    cases absolute : isAbsolute assetPath with
    | false => simp [under_joinPath absolute noDots]
    | true => simp [joinPath_absolute absolute]

/-- The error response of the handler opens nothing. -/
theorem tryCatch_staysUnder_iff {docRoot : String} {task : WorkerTask Response}
    {response : Response} :
    StaysUnder docRoot (task.tryCatch fun _ => pure response) ↔ StaysUnder docRoot task := by
  refine meets_tryCatch.trans ⟨fun holds => holds.mono ?_, fun holds => holds.mono ?_⟩
  · intro _ outcome kept
    cases outcome with
    | undefined => exact kept
    | _ => exact nofun
  · intro _ outcome kept
    cases outcome with
    | undefined => exact kept
    | _ => exact nofun

/-- `handle_assets` stays inside of the document root exactly if the request is no GET,
or its target is long enough and what follows the first eight characters is empty, has
two dots in a row, does not begin with a separator, or names a file under the root. -/
theorem handleAssets_staysUnder_iff : StaysUnder service.docRoot (handleAssets service ctx) ↔
    (ctx.method = .get → "/assets/".length ≤ ctx.target.toList.length ∧
      (ctx.target.toList.drop "/assets/".length = [] ∨
        ['.', '.'] <:+: ctx.target.toList.drop "/assets/".length ∨
        isAbsolute (ctx.target.toList.drop "/assets/".length) = false ∨
        Under service.docRoot.toList (ctx.target.toList.drop "/assets/".length))) := by
  unfold handleAssets
  rw [tryCatch_staysUnder_iff]
  by_cases gets : ctx.method = .get
  · rw [if_neg (not_not_intro gets)]
    by_cases short : ctx.target.toList.length < "/assets/".length
    · rw [if_pos short]
      exact iff_of_false (fun holds => holds rfl) fun inside => absurd (inside gets).1 (by omega)
    · rw [if_neg short, serveAsset_staysUnder_iff]
      have enough : "/assets/".length ≤ ctx.target.toList.length := by omega
      simp [gets, enough]
  · rw [if_pos gets]
    exact iff_of_true nofun fun get => absurd get gets

/-- A doubled separator after `/assets` opens any file of the machine. -/
theorem double_slash_escapes :
    ¬ ∀ (service : Service) (ctx : ReqContext), isAbsolute service.docRoot.toList = true →
      startsWith "/assets" ctx.target = true → StaysUnder service.docRoot (handleAssets service ctx) := by
  intro claimed
  have stays := tryCatch_staysUnder_iff.mp (claimed
    { jwt := { decode := fun _ => .error "invalid token supplied"
               encode := fun _ _ => ""
               hs256 := fun _ _ => "" }
      parse := fun _ => .error "syntax error"
      jwtSecret := "secret"
      docRoot := "/srv/www" }
    { version := 11, keepAlive := true, method := .get, target := "/assets//etc/passwd"
      jvOpt := none, userClaimsOpt := none } (by decide) (by decide))
  rw [if_neg (by decide), if_neg (by decide), serveAsset_staysUnder_iff] at stays
  exact absurd stays (by decide)

end TinyChat.Core
