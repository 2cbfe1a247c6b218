import TagText.Catalog.Building

/-!
The data groups that come with the library, for four contexts: the template of a post, of a user
or of a taxonomy term, and the site as a whole.
-/

namespace TagText.Default

/-- The method that gives access to a subject's own data by key. -/
def metaData (label : String) : Modifier where
  key := "meta".toList
  label := label.toList
  params := [requiredText "key" "Meta key"]

/-- The method that reads a variable of the page's address. -/
def queryVar : Modifier where
  key := "query_var".toList
  label := "Query variable".toList
  params := [requiredText "name" "Variable name"]

/-- The method that computes a formula. -/
def math : Modifier where
  key := "math".toList
  label := "Math expression".toList
  output := some .number
  params := [requiredText "expression" "Math expression"]

/-- The content item that a template is filled with. -/
def post : Group where
  key := "post".toList
  label := "Post".toList
  icon := "las la-file-alt".toList
  contexts := ["post".toList]
  fields :=
    [field "id" "ID" .number,
     field "title" "Title" .text,
     field "content" "Content" .text,
     field "excerpt" "Excerpt" .text,
     field "slug" "Slug" .text,
     field "permalink" "Permalink" .text,
     field "edit_link" "Edit link" .text,
     field "featured_image" "Featured image" .image,
     field "gallery" "Gallery" .list,
     field "date_created" "Date created" .date,
     field "date_modified" "Last modified date" .date,
     field "expiration_date" "Expiration date" .date,
     field "priority" "Priority" .number,
     field "is_verified" "Is verified?" .boolean,
     field "post_type.singular" "Post type / Singular name" .text,
     field "post_type.plural" "Post type / Plural name" .text,
     field "status.key" "Status / Key" .text,
     field "status.label" "Status / Label" .text,
     field "reviews.total" "Reviews / Total count" .number,
     field "reviews.average" "Reviews / Average rating" .number,
     field "followers.accepted" "Followers / Follow count" .number,
     field "location.full_address" "Location / Full address" .text,
     field "location.latitude" "Location / Latitude" .number,
     field "location.longitude" "Location / Longitude" .number]
  methods := [metaData "Post meta"]
  aliases :=
    [aliasOf ":id" "id",
     aliasOf ":title" "title",
     aliasOf ":url" "permalink",
     aliasOf ":image" "featured_image"]

/-- The author of the content item. -/
def author : Group where
  key := "author".toList
  label := "Author".toList
  icon := "las la-user-edit".toList
  contexts := ["post".toList]
  fields :=
    [field "id" "ID" .number,
     field "username" "Username" .text,
     field "display_name" "Display name" .text,
     field "email" "Email" .text,
     field "avatar" "Avatar" .image,
     field "first_name" "First name" .text,
     field "last_name" "Last name" .text,
     field "profile_url" "Profile URL" .text,
     field "is_verified" "Is verified?" .boolean,
     field "profile.bio" "Profile / Bio" .text,
     field "profile.website" "Profile / Website" .text,
     field "role.label" "Role / Label" .text]
  methods := [metaData "User meta"]

/-- The visitor. -/
def user : Group where
  key := "user".toList
  label := "User".toList
  icon := "las la-user".toList
  contexts := ["post".toList, "user".toList, "term".toList]
  fields :=
    [field "id" "ID" .number,
     field "username" "Username" .text,
     field "display_name" "Display name" .text,
     field "email" "Email" .text,
     field "avatar" "Avatar" .image,
     field "first_name" "First name" .text,
     field "last_name" "Last name" .text,
     field "profile_id" "Profile ID" .number,
     field "profile_url" "Profile URL" .text,
     field "is_verified" "Is verified?" .boolean,
     field "is_logged_in" "Is logged in?" .boolean,
     field "roles" "Roles" .list,
     field "profile.bio" "Profile / Bio" .text,
     field "profile.website" "Profile / Website" .text]
  methods := [metaData "User meta"]

/-- The site itself. -/
def site : Group where
  key := "site".toList
  label := "Site".toList
  icon := "las la-globe".toList
  contexts := ["post".toList, "user".toList, "term".toList, "site".toList]
  fields :=
    [field "title" "Title" .text,
     field "tagline" "Tagline" .text,
     field "logo" "Logo" .image,
     field "url" "URL" .text,
     field "admin_url" "WP Admin URL" .text,
     field "login_url" "Login URL" .text,
     field "register_url" "Register URL" .text,
     field "logout_url" "Logout URL" .text,
     field "current_plan_url" "Current plan URL" .text,
     field "language" "Language" .text,
     field "date" "Date" .date]
  methods := [queryVar, math]

/-- The taxonomy term that a template is filled with. -/
def term : Group where
  key := "term".toList
  label := "Term".toList
  icon := "las la-tag".toList
  contexts := ["term".toList]
  fields :=
    [field "id" "ID" .number,
     field "label" "Label" .text,
     field "slug" "Slug" .text,
     field "description" "Description" .text,
     field "icon" "Icon" .text,
     field "link" "Link" .text,
     field "image" "Image" .image,
     field "color" "Color" .text,
     field "post_count" "Post count" .number,
     field "parent.label" "Parent / Label" .text,
     field "taxonomy.label" "Taxonomy / Label" .text]
  aliases :=
    [aliasOf ":id" "id",
     aliasOf ":label" "label",
     aliasOf ":name" "label",
     aliasOf ":slug" "slug",
     aliasOf ":description" "description",
     aliasOf ":icon" "icon",
     aliasOf ":url" "link",
     aliasOf ":link" "link",
     aliasOf ":image" "image",
     aliasOf ":color" "color"]

/-- The built-in groups. -/
def groups : List Group := [post, author, user, site, term]

end TagText.Default
